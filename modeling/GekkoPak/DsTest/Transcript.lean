import GekkoPak.Basis.Mem

/-!
# `DsTest.Transcript` — the diagnostic transcript and its export

`prototype/dspico-v1/ds-test/source/main.c`: every log line is mirrored into `sDiag`, and `write_diag_only` writes the
transcript to the SD card as a series of small files, to be concatenated in order on the host.
-/

namespace GekkoPak

open Basis

/-! ## The transcript -/

/-- `sizeof(sDiag)`. -/
abbrev kDiagBytes : UInt32 := 8192

/-- `sDiag` and `sDiagLen`. -/
structure Diag where
  sDiag    : Mem := Mem.zero
  sDiagLen : UInt32 := 0

/-- `sDiag[0..sDiagLen)`. -/
def Diag.transcript (s : Diag) : List UInt8 := s.sDiag.read 0 s.sDiagLen.toNat

/-- What `vsniprintf(line, sizeof(line), ..)` leaves in `line` of a formatted text, up to its terminator. -/
def lineOf (text : List UInt8) : List UInt8 := (text.take 191).takeWhile (fun b => b != 0)

/-- `gpk_log`, of a text already formatted. -/
def gpkLog (s : Diag) (text : List UInt8) : Diag :=
  let line := lineOf text
  let n := UInt32.ofNat line.length
  if s.sDiagLen + n + 1 < kDiagBytes then
    let sDiag := s.sDiag.write s.sDiagLen.toNat line
    let sDiagLen := s.sDiagLen + n
    { sDiag := sDiag.write sDiagLen.toNat [0], sDiagLen := sDiagLen }
  else s

/-- The transcript after a sequence of log lines, from start-up. -/
def logged (texts : List (List UInt8)) : Diag := texts.foldl gpkLog {}

/-! ## The export -/

/-- `GPK_DIAG_CHUNK`. -/
abbrev gpkDiagChunk : UInt32 := 384

/-- What the program knows of the card: that it is mounted, the prefix found to work, and which paths `fopen(.., "w")`
    succeeds on. -/
structure SdCard where
  sFatReady : Bool
  sPrefix   : String
  fopen     : String → Bool

/-- A file written. -/
structure DiagFile where
  path : String
  data : List UInt8
deriving DecidableEq, Repr

/-- `siprintf(tail, "gekkopak/results/d%02lu.txt", c)`. -/
def diagTail (c : Nat) : String :=
  let digits := toString c
  "gekkopak/results/d" ++ (if digits.length < 2 then "0" ++ digits else digits) ++ ".txt"

/-- The chunk loop of `write_diag_only`, for the turns left. -/
def writeChunks (sd : SdCard) (s : Diag) (total : UInt32) : Nat → UInt32 → List DiagFile
  | 0,        _ => []
  | left + 1, c =>
    let off := c * gpkDiagChunk
    let len := total - off
    let len := if len > gpkDiagChunk then gpkDiagChunk else len
    let path := sd.sPrefix ++ diagTail c.toNat
    if sd.fopen path then
      { path := path, data := s.sDiag.read off.toNat len.toNat } :: writeChunks sd s total left (c + 1)
    else []

/-- `write_diag_only`: the transcript afterwards and the files written, in order. -/
def writeDiagOnly (sd : SdCard) (s : Diag) : Diag × List DiagFile :=
  if !sd.sFatReady || sd.sPrefix = "" then
    (gpkLog s "SD not writable; no diag\n".toUTF8.toList, [])
  else
    let total := if s.sDiagLen < kDiagBytes then s.sDiagLen else kDiagBytes - 1
    let chunks := (total + gpkDiagChunk - 1) / gpkDiagChunk
    let chunks := if chunks > 20 then 20 else chunks
    (s, writeChunks sd s total chunks.toNat 0)

/-- The files, concatenated in order. -/
def concatenated (files : List DiagFile) : List UInt8 := (files.map DiagFile.data).flatten

end GekkoPak
