import Mathlib.Logic.Function.Basic
import RetroLens.Lib.Riff
import RetroLens.Lib.Stdio

/-!
# AviWriter

The movie writer, method by method, over a buffered stream whose writes may
fail. File positions are 64 bits wide, size and count fields 32: the writer
patches them once it knows them, and cuts what does not fit.
-/

namespace RetroLens.Core

open Text Stdio Riff

def kMaxAviFrames : Nat := 9000

/-- What `open` remembers of the header. -/
structure AviOffsets where
  riffSizeOffset : Nat := 0
  moviSizeOffset : Nat := 0
  moviDataOffset : Nat := 0
  avihFramesOffset : Nat := 0
  strhFramesOffset : Nat := 0
  deriving DecidableEq, Repr

structure AviWriter where
  file : Option Stream := none
  width : Int := 0
  height : Int := 0
  fps : Int := 0
  frameCount : Nat := 0
  bytesWritten : Nat := 0
  offsets : AviOffsets := {}
  frameOffsets : Nat → UInt32 := fun _ => 0
  frameSizes : Nat → UInt32 := fun _ => 0

section

variable (faults : Faults)

/-! ## The field writers -/

def writeU16 (v : UInt16) : Out Unit := do
  Out.fputc faults (v &&& 255).toUInt8
  Out.fputc faults ((v >>> 8) &&& 255).toUInt8

def writeU32 (v : UInt32) : Out Unit := do
  writeU16 faults (v &&& 0xffff).toUInt16
  writeU16 faults (v >>> 16).toUInt16

def writeFourCC (v : String) : Out Unit := do
  let _ ← Out.fwrite faults ((ascii v).take 4)

def writeZeros : Nat → Out Unit
  | 0 => pure ()
  | count + 1 => do
    Out.fputc faults 0
    writeZeros count

def patchU32 (offset : Nat) (value : UInt32) : Out Unit := do
  let here ← Out.ftell
  Out.fseek faults offset
  writeU32 faults value
  Out.fseek faults here

/-! ## open -/

/-- The avih chunk; the place of its frame count. -/
def writeAvih (width height fps : Int) : Out Nat := do
  writeFourCC faults "avih"
  writeU32 faults 56
  writeU32 faults (1000000 / .ofInt fps)
  writeU32 faults 0
  writeU32 faults 0
  writeU32 faults 0x10
  let avihFramesOffset ← Out.ftell
  writeU32 faults 0
  writeU32 faults 0
  writeU32 faults 1
  writeU32 faults (.ofInt (width * height * 3))
  writeU32 faults (.ofInt width)
  writeU32 faults (.ofInt height)
  writeZeros faults 16
  return avihFramesOffset

/-- The strh chunk; the place of its frame count. -/
def writeStrh (width height fps : Int) : Out Nat := do
  writeFourCC faults "strh"
  writeU32 faults 56
  writeFourCC faults "vids"
  writeFourCC faults "MJPG"
  writeU32 faults 0
  writeU16 faults 0
  writeU16 faults 0
  writeU32 faults 0
  writeU32 faults 1
  writeU32 faults (.ofInt fps)
  writeU32 faults 0
  let strhFramesOffset ← Out.ftell
  writeU32 faults 0
  writeU32 faults (.ofInt (width * height * 3))
  writeU32 faults 0xffffffff
  writeU32 faults 0
  writeU16 faults 0
  writeU16 faults 0
  writeU16 faults (.ofInt width)
  writeU16 faults (.ofInt height)
  return strhFramesOffset

def writeStrf (width height : Int) : Out Unit := do
  writeFourCC faults "strf"
  writeU32 faults 40
  writeU32 faults 40
  writeU32 faults (.ofInt width)
  writeU32 faults (.ofInt height)
  writeU16 faults 1
  writeU16 faults 24
  writeFourCC faults "MJPG"
  writeU32 faults (.ofInt (width * height * 3))
  writeU32 faults 0
  writeU32 faults 0
  writeU32 faults 0
  writeU32 faults 0

/-- All that `open` writes, and `bytesWritten_` after it. -/
def writeHeader (width height fps : Int) : Out (AviOffsets × Nat) := do
  writeFourCC faults "RIFF"
  let riffSizeOffset ← Out.ftell
  writeU32 faults 0
  writeFourCC faults "AVI "
  writeFourCC faults "LIST"
  let hdrlSize ← Out.ftell
  writeU32 faults 0
  let hdrlStart ← Out.ftell
  writeFourCC faults "hdrl"
  let avihFramesOffset ← writeAvih faults width height fps
  writeFourCC faults "LIST"
  let strlSize ← Out.ftell
  writeU32 faults 0
  let strlStart ← Out.ftell
  writeFourCC faults "strl"
  let strhFramesOffset ← writeStrh faults width height fps
  writeStrf faults width height
  let strlEnd ← Out.ftell
  patchU32 faults strlSize (.ofInt (strlEnd - strlStart))
  let hdrlEnd ← Out.ftell
  patchU32 faults hdrlSize (.ofInt (hdrlEnd - hdrlStart))
  writeFourCC faults "LIST"
  let moviSizeOffset ← Out.ftell
  writeU32 faults 0
  let moviDataOffset ← Out.ftell
  writeFourCC faults "movi"
  let bytesWritten ← Out.ftell
  return ({ riffSizeOffset, moviSizeOffset, moviDataOffset, avihFramesOffset, strhFramesOffset },
    bytesWritten)

namespace AviWriter

/-- `abort` closes the file. -/
def abort (w : AviWriter) : AviWriter := { w with file := none }

/-- `path`: it is not null; `fopenOk`: the file can be created. -/
def «open» (path fopenOk : Bool) (width height fps : Int) (w : AviWriter) : Bool × AviWriter :=
  let w := w.abort
  if !path || width ≤ 0 || height ≤ 0 || fps ≤ 0 then (false, w)
  else if !fopenOk then (false, w)
  else
    let ((offsets, bytesWritten), s) := (writeHeader faults width height fps).run {}
    (!s.ferror,
      { w with file := some s, width, height, fps, frameCount := 0, bytesWritten, offsets })

/-! ## addFrame, finish -/

/-- What `addFrame` writes: the place of the chunk and `bytesWritten_`, if all of the frame could
be written, and whether the stream has an error. -/
def writeFrame (jpeg : Bytes) : Out (Option (Nat × Nat × Bool)) := do
  let chunk ← Out.ftell
  writeFourCC faults "00dc"
  writeU32 faults (.ofNat jpeg.length)
  let written ← Out.fwrite faults jpeg
  if !written then return none
  if jpeg.length % 2 = 1 then Out.fputc faults 0
  let bytesWritten ← Out.ftell
  let error ← Out.ferror
  return some (chunk, bytesWritten, error)

/-- A null `jpeg` is `none`. -/
def addFrame (jpeg : Option Bytes) (w : AviWriter) : Bool × AviWriter :=
  match w.file, jpeg with
  | some s, some jpeg =>
    if jpeg.length = 0 ∨ w.frameCount ≥ kMaxAviFrames ∨ jpeg.length > 1024 * 1024 then (false, w)
    else
      match (writeFrame faults jpeg).run s with
      | (none, s) => (false, { w with file := some s })
      | (some (chunk, bytesWritten, error), s) =>
        (!error,
          { w with
            file := some s
            frameOffsets := Function.update w.frameOffsets w.frameCount
              (.ofInt (chunk - w.offsets.moviDataOffset))
            frameSizes := Function.update w.frameSizes w.frameCount (.ofNat jpeg.length)
            frameCount := w.frameCount + 1
            bytesWritten })
  | _, _ => (false, w)

/-- The entries of the index from the `i`-th on. -/
def writeEntries (w : AviWriter) (i : Nat) : Nat → Out Unit
  | 0 => pure ()
  | count + 1 => do
    writeFourCC faults "00dc"
    writeU32 faults 0x10
    writeU32 faults (w.frameOffsets i)
    writeU32 faults (w.frameSizes i)
    w.writeEntries (i + 1) count

/-- All that `finish` writes, and its result. -/
def writeTrailer (w : AviWriter) : Out Bool := do
  let moviEnd ← Out.ftell
  patchU32 faults w.offsets.moviSizeOffset (.ofInt (moviEnd - w.offsets.moviDataOffset))
  writeFourCC faults "idx1"
  writeU32 faults (.ofNat (w.frameCount * 16))
  w.writeEntries faults 0 w.frameCount
  patchU32 faults w.offsets.avihFramesOffset (.ofNat w.frameCount)
  patchU32 faults w.offsets.strhFramesOffset (.ofNat w.frameCount)
  let fileEnd ← Out.ftell
  patchU32 faults w.offsets.riffSizeOffset (.ofInt (fileEnd - 8))
  let error ← Out.ferror
  if error then return false
  Out.fflush faults

/-- `finish`, and the file that it closes. -/
def finish (w : AviWriter) : Bool × AviWriter × Bytes :=
  match w.file with
  | none => (false, w, [])
  | some s =>
    let (ok, s) := (w.writeTrailer faults).run s
    (ok, w.abort, s.fclose faults)

/-! ## A movie -/

/-- The calls of `addFrame`, and the frames that they accept. -/
def addFrames : List (Option Bytes) → AviWriter → AviWriter × List Bytes
  | [], w => (w, [])
  | jpeg :: calls, w =>
    let (accepted, w) := w.addFrame faults jpeg
    let (w, frames) := addFrames calls w
    (w, if accepted then jpeg.toList ++ frames else frames)

/-- A writer opened and given frames; the frames accepted. -/
def record (path fopenOk : Bool) (width height fps : Int) (calls : List (Option Bytes))
    (w : AviWriter) : AviWriter × List Bytes :=
  (w.«open» faults path fopenOk width height fps).2.addFrames faults calls

end AviWriter

end

end RetroLens.Core
