import Mathlib.Data.List.Nodup
import Mathlib.Data.List.TakeDrop
import GekkoPak.Basis.Chunks
import GekkoPak.Basis.LineLog
import GekkoPak.DsTest.Transcript

/-!
# `DsTest.Correctness.Transcript` — what of the transcript reaches the card

The transcript is a bounded log of whole lines (`transcript_gpkLog`). `write_diag_only` cuts it into chunks, at most
twenty of them, and the chunks concatenate to the first 7680 bytes (`concatenated_writeDiagOnly`); the buffer holds up
to 8190. Between the two limits the end of the transcript is in no file.
-/

namespace GekkoPak

open Basis

/-! ## The transcript is a log of lines -/

theorem lineOf_length_le (text : List UInt8) : (lineOf text).length ≤ 191 :=
  Nat.le_trans (List.takeWhile_prefix _).length_le (List.length_take_le _ _)

@[simp] theorem transcript_length (s : Diag) : s.transcript.length = s.sDiagLen.toNat := Mem.read_length _ _ _

/-- The guard of `gpk_log`, which does not wrap below the buffer's end. -/
theorem fits_iff {len : UInt32} (hlen : len.toNat < 8191) {line : List UInt8} (hline : line.length ≤ 191) :
    (len + UInt32.ofNat line.length + 1 < kDiagBytes ↔ len.toNat + line.length < 8191) ∧
      (len + UInt32.ofNat line.length).toNat = len.toNat + line.length := by
  have h1 : (1 : UInt32).toNat = 1 := rfl
  have hcap : kDiagBytes.toNat = 8192 := rfl
  have hline32 : (UInt32.ofNat line.length).toNat = line.length := by
    rw [UInt32.toNat_ofNat']
    omega
  have hsum : (len + UInt32.ofNat line.length).toNat = len.toNat + line.length := by
    rw [UInt32.toNat_add, hline32]
    omega
  refine ⟨?_, hsum⟩
  rw [UInt32.lt_iff_toNat_lt, UInt32.toNat_add, hsum, h1, hcap]
  omega

/-- One call of `gpk_log`. -/
theorem transcript_gpkLog {s : Diag} (hs : s.transcript.length < 8191) (text : List UInt8) :
    (gpkLog s text).transcript = keepLine 8191 s.transcript (lineOf text) := by
  rw [transcript_length] at hs
  obtain ⟨hguard, hsum⟩ := fits_iff hs (lineOf_length_le text)
  rw [keepLine, transcript_length]
  by_cases hfits : s.sDiagLen.toNat + (lineOf text).length < 8191
  · rw [if_pos hfits]
    simp only [gpkLog]
    rw [if_pos (hguard.mpr hfits)]
    simp only [Diag.transcript]
    -- the terminator lands behind the line
    rw [Mem.read_write_disjoint (Or.inr (by rw [Nat.zero_add])), hsum, Mem.read_add,
      Mem.read_write_disjoint (Or.inr (by rw [Nat.zero_add])), Nat.zero_add, Mem.read_write_same]
  · rw [if_neg hfits]
    simp only [gpkLog]
    rw [if_neg (hguard.not.mpr hfits)]

/-- Every run of `gpk_log`: the transcript is the log of the lines, and it ends below the end of the buffer. -/
theorem transcript_foldl {s : Diag} (hs : s.transcript.length < 8191) (texts : List (List UInt8)) :
    (texts.foldl gpkLog s).transcript = (texts.map lineOf).foldl (keepLine 8191) s.transcript ∧
      (texts.foldl gpkLog s).transcript.length < 8191 := by
  induction texts generalizing s with
  | nil => exact ⟨rfl, hs⟩
  | cons text texts ih =>
    have hstep := transcript_gpkLog hs text
    have hnext : (gpkLog s text).transcript.length < 8191 := by
      rw [hstep]
      exact keepLine_length_lt hs _
    rw [List.foldl_cons, List.map_cons, List.foldl_cons, ← hstep]
    exact ih hnext

theorem transcript_logged (texts : List (List UInt8)) :
    (logged texts).transcript = (texts.map lineOf).foldl (keepLine 8191) [] ∧ (logged texts).transcript.length < 8191 := by
  have hempty : ({} : Diag).transcript = [] := rfl
  rw [← hempty]
  exact transcript_foldl (by rw [hempty]; decide) texts

/-- The bytes logged, whether kept or not. -/
def bytesLogged (texts : List (List UInt8)) : Nat := (texts.map (fun text => (lineOf text).length)).sum

/-- Up to 7680 bytes nothing is dropped: the transcript is that short exactly when what was logged is. -/
theorem transcript_length_le_iff (texts : List (List UInt8)) :
    (logged texts).transcript.length ≤ 7680 ↔ bytesLogged texts ≤ 7680 := by
  have hlines : ∀ line ∈ texts.map lineOf, line.length ≤ 191 := by
    intro line hmem
    obtain ⟨text, _, rfl⟩ := List.mem_map.mp hmem
    exact lineOf_length_le text
  rw [(transcript_logged texts).1, length_logAll_le_iff hlines (by decide), List.length_nil, Nat.zero_add, List.map_map]
  rfl

/-! ## The export -/

/-- A card that is mounted, with a working prefix, and takes every file. -/
structure SdCard.Writable (sd : SdCard) : Prop where
  mounted : sd.sFatReady = true
  located : sd.sPrefix ≠ ""
  opens   : ∀ path, sd.fopen path = true

/-- The chunk loop, turn by turn. -/
theorem writeChunks_data {sd : SdCard} (hopens : ∀ path, sd.fopen path = true) (s : Diag) {total : UInt32}
    (left : Nat) (c : UInt32) (hleft : 384 * (c.toNat + left) < total.toNat + 384) (hturns : c.toNat + left ≤ 20) :
    (writeChunks sd s total left c).map DiagFile.data =
      (List.range' c.toNat left).map (fun k => s.sDiag.read (384 * k) (chunkLen 384 total.toNat k)) := by
  induction left generalizing c with
  | zero => rfl
  | succ left ih =>
    have h384 : gpkDiagChunk.toNat = 384 := rfl
    have h1 : (1 : UInt32).toNat = 1 := rfl
    have hoff : (c * gpkDiagChunk).toNat = 384 * c.toNat := by
      rw [UInt32.toNat_mul, h384]
      omega
    have hrest : (total - c * gpkDiagChunk).toNat = total.toNat - 384 * c.toNat := by
      rw [UInt32.toNat_sub_of_le _ _ (by rw [UInt32.le_iff_toNat_le, hoff]; omega), hoff]
    have hlen : (if total - c * gpkDiagChunk > gpkDiagChunk then gpkDiagChunk else total - c * gpkDiagChunk).toNat =
        chunkLen 384 total.toNat c.toNat := by
      have hgt : total - c * gpkDiagChunk > gpkDiagChunk ↔ 384 < total.toNat - 384 * c.toNat := by
        rw [gt_iff_lt, UInt32.lt_iff_toNat_lt, h384, hrest]
      rw [chunkLen]
      by_cases hfull : 384 < total.toNat - 384 * c.toNat
      · rw [if_pos (hgt.mpr hfull), h384, Nat.min_eq_left (Nat.le_of_lt hfull)]
      · rw [if_neg (hgt.not.mpr hfull), hrest, Nat.min_eq_right (Nat.not_lt.mp hfull)]
    have hnext : (c + 1).toNat = c.toNat + 1 := by
      rw [UInt32.toNat_add, h1]
      omega
    rw [writeChunks]
    simp only [hopens, if_true, List.map_cons, List.range'_succ, hoff, hlen]
    rw [ih (c + 1) (by rw [hnext]; omega) (by rw [hnext]; omega), hnext]

/-- The number of chunks: as many as it takes, and not more than twenty. -/
theorem chunks_toNat {total : UInt32} (htotal : total.toNat < 8192) :
    (if (total + gpkDiagChunk - 1) / gpkDiagChunk > 20 then 20 else (total + gpkDiagChunk - 1) / gpkDiagChunk).toNat =
      min 20 ((total.toNat + 383) / 384) := by
  have h384 : gpkDiagChunk.toNat = 384 := rfl
  have h1 : (1 : UInt32).toNat = 1 := rfl
  have h20 : (20 : UInt32).toNat = 20 := rfl
  have hadd : (total + gpkDiagChunk).toNat = total.toNat + 384 := by
    rw [UInt32.toNat_add, h384]
    omega
  have hsub : (total + gpkDiagChunk - 1).toNat = total.toNat + 383 := by
    rw [UInt32.toNat_sub_of_le _ _ (by rw [UInt32.le_iff_toNat_le, hadd, h1]; omega), hadd, h1]
    omega
  have hdiv : ((total + gpkDiagChunk - 1) / gpkDiagChunk).toNat = (total.toNat + 383) / 384 := by
    rw [UInt32.toNat_div, hsub, h384]
  have hgt : (total + gpkDiagChunk - 1) / gpkDiagChunk > 20 ↔ 20 < (total.toNat + 383) / 384 := by
    rw [gt_iff_lt, UInt32.lt_iff_toNat_lt, h20, hdiv]
  by_cases hmany : 20 < (total.toNat + 383) / 384
  · rw [if_pos (hgt.mpr hmany), h20, Nat.min_eq_left (Nat.le_of_lt hmany)]
  · rw [if_neg (hgt.not.mpr hmany), hdiv, Nat.min_eq_right (Nat.not_lt.mp hmany)]

/-- The files `write_diag_only` writes, by the chunk loop. -/
theorem writeDiagOnly_files {sd : SdCard} (hmounted : sd.sFatReady = true) (hlocated : sd.sPrefix ≠ "") {s : Diag}
    (hs : s.transcript.length < 8191) :
    (writeDiagOnly sd s).2 = writeChunks sd s s.sDiagLen (min 20 ((s.sDiagLen.toNat + 383) / 384)) 0 := by
  rw [transcript_length] at hs
  have hguard : ¬ ((!sd.sFatReady || decide (sd.sPrefix = "")) = true) := by
    simp [hmounted, hlocated]
  have hcap : s.sDiagLen < kDiagBytes := by
    have h8192 : kDiagBytes.toNat = 8192 := rfl
    rw [UInt32.lt_iff_toNat_lt, h8192]
    omega
  rw [writeDiagOnly, if_neg hguard, if_pos hcap]
  simp only []
  rw [chunks_toNat (by omega)]

/-- The files hold the first 7680 bytes of the transcript, in order. -/
theorem concatenated_writeDiagOnly {sd : SdCard} (hsd : sd.Writable) {s : Diag} (hs : s.transcript.length < 8191) :
    concatenated (writeDiagOnly sd s).2 = s.transcript.take 7680 := by
  have hdata := @writeChunks_data sd hsd.opens s s.sDiagLen (min 20 ((s.sDiagLen.toNat + 383) / 384)) 0
    (by rw [UInt32.toNat_zero]; omega) (by rw [UInt32.toNat_zero]; omega)
  have hflat := Mem.chunks_flatten s.sDiag 384 0 s.sDiagLen.toNat (min 20 ((s.sDiagLen.toNat + 383) / 384))
  have hlen : min s.sDiagLen.toNat (384 * min 20 ((s.sDiagLen.toNat + 383) / 384)) = min 7680 s.sDiagLen.toNat := by
    omega
  simp only [Mem.chunks, Nat.zero_add] at hflat
  rw [UInt32.toNat_zero, ← List.range_eq_range'] at hdata
  rw [writeDiagOnly_files hsd.mounted hsd.located hs, concatenated, hdata, hflat, hlen, Diag.transcript]
  rcases Nat.le_total s.sDiagLen.toNat 7680 with hshort | hlong
  · rw [Nat.min_eq_right hshort, List.take_of_length_le (by rw [Mem.read_length]; exact hshort)]
  · rw [Nat.min_eq_left hlong, Mem.take_read hlong]

/-- The names of the files written, up to the first that does not open. -/
theorem writeChunks_paths (sd : SdCard) (s : Diag) (total : UInt32) (left : Nat) (c : UInt32)
    (hturns : c.toNat + left ≤ 20) :
    ((writeChunks sd s total left c).map DiagFile.path).Sublist
      ((List.range' c.toNat left).map (fun k => sd.sPrefix ++ diagTail k)) := by
  induction left generalizing c with
  | zero => exact List.Sublist.refl _
  | succ left ih =>
    have h1 : (1 : UInt32).toNat = 1 := rfl
    have hnext : (c + 1).toNat = c.toNat + 1 := by
      rw [UInt32.toNat_add, h1]
      omega
    have hrest := ih (c + 1) (by rw [hnext]; omega)
    rw [hnext] at hrest
    simp only [writeChunks, List.range'_succ, List.map_cons]
    split
    · exact hrest.cons_cons _
    · exact List.nil_sublist _

theorem diagTails_nodup : ((List.range 20).map diagTail).Nodup := by decide

/-- Every file has a name of its own: none is written over by a later one. -/
theorem writeDiagOnly_paths {sd : SdCard} (hmounted : sd.sFatReady = true) (hlocated : sd.sPrefix ≠ "") {s : Diag}
    (hs : s.transcript.length < 8191) : ((writeDiagOnly sd s).2.map DiagFile.path).Nodup := by
  have hpaths := writeChunks_paths sd s s.sDiagLen (min 20 ((s.sDiagLen.toNat + 383) / 384)) 0
    (by rw [UInt32.toNat_zero]; omega)
  rw [UInt32.toNat_zero, ← List.range_eq_range'] at hpaths
  have hall : ((List.range 20).map (fun k => sd.sPrefix ++ diagTail k)).Nodup := by
    have hmap := diagTails_nodup.map (f := fun tail => sd.sPrefix ++ tail)
      (fun _ _ h => (String.append_right_inj sd.sPrefix).mp h)
    rw [List.map_map] at hmap
    exact hmap
  rw [writeDiagOnly_files hmounted hlocated hs]
  exact (hpaths.trans ((List.range_sublist.mpr (Nat.min_le_left _ _)).map _)).nodup hall

/-- **The export is the transcript up to the cap on chunks.** On a card that takes every file, the files concatenate to
    the transcript exactly when the bytes logged are 7680 at most. -/
theorem export_is_transcript_iff (sd : SdCard) (hsd : sd.Writable) (texts : List (List UInt8)) :
    concatenated (writeDiagOnly sd (logged texts)).2 = (logged texts).transcript ↔ bytesLogged texts ≤ 7680 := by
  rw [concatenated_writeDiagOnly hsd (transcript_logged texts).2, ← transcript_length_le_iff]
  exact List.take_eq_self_iff _

theorem bytesLogged_longest (n : Nat) : bytesLogged (List.replicate n (List.replicate 191 65)) = n * 191 := by
  have hline : (lineOf (List.replicate 191 65)).length = 191 := by
    rw [lineOf, List.take_replicate, List.takeWhile_replicate, if_pos (by decide), List.length_replicate, Nat.min_self]
  rw [bytesLogged, List.map_replicate, hline, List.sum_replicate_nat]

/-- A card that takes every file. -/
def openCard : SdCard := { sFatReady := true, sPrefix := "fat:/", fopen := fun _ => true }

theorem openCard_writable : openCard.Writable := ⟨rfl, by decide, fun _ => rfl⟩

/-- Forty lines of the longest kind are exported whole. -/
theorem export_is_transcript_forty :
    concatenated (writeDiagOnly openCard (logged (List.replicate 40 (List.replicate 191 65)))).2 =
      (logged (List.replicate 40 (List.replicate 191 65))).transcript := by
  apply (export_is_transcript_iff openCard openCard_writable _).mpr
  rw [bytesLogged_longest]
  decide

/-- Forty-one fit the buffer, and their end is in no file. -/
theorem export_truncates :
    ¬ concatenated (writeDiagOnly openCard (logged (List.replicate 41 (List.replicate 191 65)))).2 =
      (logged (List.replicate 41 (List.replicate 191 65))).transcript := by
  rw [concatenated_writeDiagOnly openCard_writable (transcript_logged _).2, List.take_eq_self_iff,
    transcript_length_le_iff, bytesLogged_longest]
  decide

end GekkoPak
