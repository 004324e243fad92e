/-
# `decompress_frame`: decoding a block frame by frame

`lzma_block_decompressor` (src/src/compression/lzma.cpp, lines 265–333) opens a stream
decoder with `LZMA_CONCATENATED` on a block, reads the block's uncompressed size
`uncompressed_size_` with `get_uncompressed_size`, and `decompress_frame(frame_size)`
appends the next `frame_size` bytes to the target buffer. A frame that would pass the
uncompressed size is cut to what is left and decoded with `LZMA_FINISH`; the call returns
true when `lzma_code` returns `LZMA_STREAM_END`.

`lzma_code` is modelled on a well-formed block that decodes to `D`: it writes the next
bytes of `D` that fit, returns `LZMA_OK` under `LZMA_RUN` (a concatenated stream may go
on), and `LZMA_STREAM_END` under `LZMA_FINISH` once all of `D` is out.
`assert(frame_size > 0)` is the outcome `FrameResult.assertFailed`.

* `decompressFrame_atByte`: one call on a decompressor that holds the first `n` bytes;
* `decompressFrames_below`, `decompressFrames_exceeds`, `decompressFrames_exact`: every
  run of calls, split by where the frame sizes' partial sums first reach the block size.

A frame that ends exactly at the block's end is decoded with `LZMA_RUN`: the call
returns false with the whole block in the buffer, and the next call computes a frame size
of zero and fails its assertion (`decompressFrame_exact_fill`).
-/
import Dwarfs.Lzma.StreamSize
import Mathlib

namespace Dwarfs.Lzma

/-- `lzma_stream` of a decoder opened on a well-formed block: `data` is what the block
decodes to, `produced` how much of it the decoder has written, `ended` whether
`lzma_end` has freed it. -/
structure DecoderStream where
  data : List UInt8
  produced : Nat
  ended : Bool
  deriving DecidableEq, Repr

/-- `lzma_code(&stream_, action)` with room for `availOut` bytes: the return code, the
bytes written, and the stream after the call. A freed stream is a programming error. -/
def lzmaCode (s : DecoderStream) (action : LzmaAction) (availOut : Nat) :
    LzmaRet × List UInt8 × DecoderStream :=
  if s.ended then (.progError, [], s)
  else
    let out := (s.data.drop s.produced).take availOut
    let s := { s with produced := s.produced + out.length }
    match action with
    | .run => (.ok, out, s)
    | .finish => (if s.produced = s.data.length then .streamEnd else .ok, out, s)

/-- `lzma_end`. -/
def lzmaEnd (s : DecoderStream) : DecoderStream := { s with ended := true }

/-- `lzma_block_decompressor`: the target buffer `decompressed_`, `uncompressed_size_`,
`error_` and the decoder stream. -/
structure BlockDecompressor where
  decompressed : List UInt8
  uncompressedSize : Nat
  error : String
  stream : DecoderStream
  deriving DecidableEq, Repr

/-- How a call of `decompress_frame` ends: it returns `done` with the decompressor's new
state, it throws `runtime_error` leaving a state behind, or `assert` aborts. -/
inductive FrameResult
  | returned (done : Bool) (d : BlockDecompressor)
  | thrown (what : String) (d : BlockDecompressor)
  | assertFailed
  deriving DecidableEq, Repr

/-- The constructor on a block `data` that liblzma decodes to `decoded`: it reads the
uncompressed size and opens the stream decoder, whose setup returns `decoderInit`. -/
def lzmaBlockDecompressor (lib : Liblzma) (data target decoded : List UInt8)
    (decoderInit : LzmaRet) : Except SizeError BlockDecompressor :=
  match getUncompressedSize lib data with
  | .error e => .error e
  | .ok usize =>
    if decoderInit ≠ .ok then
      .error (.runtime ("lzma_stream_decoder: " ++ lzmaErrorString decoderInit))
    else .ok { decompressed := target, uncompressedSize := usize, error := "",
               stream := ⟨decoded, 0, false⟩ }

/-- `lzma_block_decompressor::decompress_frame`. -/
def decompressFrame (d : BlockDecompressor) (frameSize : Nat) : FrameResult :=
  if d.error ≠ "" then .thrown d.error d
  else
    let offset := d.decompressed.length
    let finish := sizeAdd offset frameSize > d.uncompressedSize
    let action := if finish then LzmaAction.finish else .run
    let frameSize := if finish then sizeSub d.uncompressedSize offset else frameSize
    if ¬ 0 < frameSize then .assertFailed
    else
      match lzmaCode d.stream action frameSize with
      | (ret, out, stream) =>
        let availOut := frameSize - out.length
        let stream := if ret = .streamEnd then lzmaEnd stream else stream
        if ret ≠ (if action = .run then .ok else .streamEnd) ∨ availOut ≠ 0 then
          let error := "LZMA decompression failed: " ++ lzmaErrorString ret
          .thrown error { d with decompressed := [], error, stream }
        else
          .returned (ret == .streamEnd)
            { d with decompressed := d.decompressed ++ out ++ List.replicate availOut 0, stream }

/-- Calls `decompress_frame` with the frame sizes in turn, each only while the previous
call returned false, and gives the outcome of the last call made. -/
def decompressFrames (d : BlockDecompressor) : List Nat → FrameResult
  | [] => .returned false d
  | f :: fs =>
    match decompressFrame d f with
    | .returned false d => decompressFrames d fs
    | r => r

/-! ## One call -/

namespace BlockDecompressor

/-- The decompressor that holds the first `n` bytes of the block `D`. -/
def atByte (D : List UInt8) (n : Nat) : BlockDecompressor :=
  { decompressed := D.take n, uncompressedSize := D.length, error := "",
    stream := ⟨D, n, false⟩ }

/-- The decompressor after the call that returned done. -/
def finished (D : List UInt8) : BlockDecompressor :=
  { decompressed := D, uncompressedSize := D.length, error := "",
    stream := ⟨D, D.length, true⟩ }

end BlockDecompressor

open BlockDecompressor

/-- The constructor on a well-formed block, with an empty target, holds no byte yet. -/
theorem lzmaBlockDecompressor_ok {lib : Liblzma} {data D : List UInt8}
    (h : getUncompressedSize lib data = .ok D.length) :
    lzmaBlockDecompressor lib data [] D .ok = .ok (atByte D 0) := by
  simp [lzmaBlockDecompressor, h, atByte]

section Step

variable {D : List UInt8} {n f : Nat}

/-- A frame that stays inside the block is decoded with `LZMA_RUN` and appended. -/
theorem decompressFrame_run (hf : 0 < f) (hnf : n + f ≤ D.length) (hmod : n + f < sizeMod) :
    decompressFrame (atByte D n) f = .returned false (atByte D (n + f)) := by
  have hmin : min f (D.length - n) = f := Nat.min_eq_left (by omega)
  simp only [decompressFrame, atByte, List.length_take, Nat.min_eq_left (by omega : n ≤ D.length),
    sizeAdd_of_lt hmod, gt_iff_lt, Nat.not_lt.mpr hnf, if_false, lzmaCode]
  simp [hf, hmin, List.take_add]

/-- A frame that passes the block's end is cut to the rest and decoded with
`LZMA_FINISH`; the call returns done with the whole block. -/
theorem decompressFrame_finish (hn : n < D.length) (hnf : D.length < n + f)
    (hmod : n + f < sizeMod) (hD : D.length < sizeMod) :
    decompressFrame (atByte D n) f = .returned true (finished D) := by
  simp only [decompressFrame, atByte, List.length_take, Nat.min_eq_left (Nat.le_of_lt hn),
    sizeAdd_of_lt hmod, gt_iff_lt, hnf, if_true, sizeSub_of_le hD (Nat.le_of_lt hn), lzmaCode]
  have hd : (D.drop n).take (D.length - n) = D.drop n := List.take_of_length_le (by simp)
  simp [Nat.sub_pos_of_lt hn, Nat.add_sub_cancel' (Nat.le_of_lt hn), lzmaEnd, finished, hd]

/-- With the whole block in the buffer, any frame is cut to zero bytes. -/
theorem decompressFrame_full (hf : 0 < f) (hmod : D.length + f < sizeMod) :
    decompressFrame (atByte D D.length) f = .assertFailed := by
  have hz : sizeSub D.length D.length = 0 := by
    rw [sizeSub_of_le (by omega) (Nat.le_refl _), Nat.sub_self]
  simp [decompressFrame, atByte, sizeAdd_of_lt hmod, hf, hz]

/-- **One call.** On a decompressor that holds the first `n` bytes of the block, a call
with a positive frame size appends `min f (U - n)` bytes of the block and returns done
exactly when the frame passes the block's end; a frame that ends exactly there returns
false. With the whole block already in the buffer the assertion fails. -/
theorem decompressFrame_atByte (hn : n ≤ D.length) (hf : 0 < f) (hmod : n + f < sizeMod)
    (hD : D.length < sizeMod) :
    decompressFrame (atByte D n) f =
      if n + f ≤ D.length then .returned false (atByte D (n + f))
      else if n < D.length then .returned true (finished D)
      else .assertFailed := by
  split_ifs with h₁ h₂
  · exact decompressFrame_run hf h₁ hmod
  · exact decompressFrame_finish h₂ (by omega) hmod hD
  · obtain rfl : n = D.length := by omega
    exact decompressFrame_full hf hmod

end Step

/-- A block of one byte read in a frame of one byte: the call fills the buffer and
returns false. -/
theorem decompressFrame_atByte_fill :
    0 ≤ [7].length ∧ 0 < 1 ∧ 0 + 1 < sizeMod ∧ [7].length < sizeMod ∧
      decompressFrame (atByte [7] 0) 1 =
        if 0 + 1 ≤ [7].length then .returned false (atByte [7] (0 + 1))
        else if 0 < [7].length then .returned true (finished [7])
        else .assertFailed :=
  ⟨by decide, by decide, by decide, by decide,
    decompressFrame_atByte (by decide) (by decide) (by decide) (by decide)⟩

/-! ## Runs of calls -/

section Runs

variable {D : List UInt8} {n : Nat}

/-- **Frames inside the block.** While the partial sums stay within the block, every
call appends its whole frame and returns false, also the call that fills the block. -/
theorem decompressFrames_below (fs : List Nat) (hpos : ∀ f ∈ fs, 0 < f)
    (hsum : n + fs.sum ≤ D.length) (hD : D.length < sizeMod) :
    decompressFrames (atByte D n) fs = .returned false (atByte D (n + fs.sum)) := by
  induction fs generalizing n with
  | nil => rfl
  | cons f fs ih =>
    simp only [List.sum_cons] at hsum
    rw [decompressFrames, decompressFrame_run (hpos f (List.mem_cons_self f fs)) (by omega)
      (by omega)]
    simp only [List.sum_cons, ← Nat.add_assoc]
    exact ih (fun f hf => hpos f (List.mem_cons_of_mem _ hf)) (by omega)

/-- Frames of one and two bytes over a three-byte block fill it without a done. -/
theorem decompressFrames_below_three :
    (∀ f ∈ [1, 2], 0 < f) ∧ 0 + [1, 2].sum ≤ [1, 2, 3].length ∧ [1, 2, 3].length < sizeMod ∧
      decompressFrames (atByte [1, 2, 3] 0) [1, 2] =
        .returned false (atByte [1, 2, 3] (0 + [1, 2].sum)) :=
  ⟨by decide, by decide, by decide,
    decompressFrames_below [1, 2] (by decide) (by decide) (by decide)⟩

/-- **The frame that passes the end.** The first call whose frame passes the block's
end returns done with the whole block, and no later frame is asked for. -/
theorem decompressFrames_exceeds (gs hs : List Nat) (f : Nat) (hpos : ∀ g ∈ gs, 0 < g)
    (hlt : n + gs.sum < D.length) (hgt : D.length < n + gs.sum + f)
    (hmod : n + gs.sum + f < sizeMod) :
    decompressFrames (atByte D n) (gs ++ f :: hs) = .returned true (finished D) := by
  induction gs generalizing n with
  | nil =>
    simp only [List.sum_nil, Nat.add_zero] at hlt hgt hmod
    simp [decompressFrames, decompressFrame_finish hlt hgt hmod (by omega)]
  | cons g gs ih =>
    simp only [List.sum_cons] at hlt hgt hmod
    rw [List.cons_append, decompressFrames, decompressFrame_run (hpos g (List.mem_cons_self g gs))
      (by omega) (by omega)]
    exact ih (fun g hg => hpos g (List.mem_cons_of_mem _ hg)) (by omega) (by omega) (by omega)

/-- Frames of two bytes over a three-byte block: the second returns done. -/
theorem decompressFrames_exceeds_three :
    (∀ g ∈ [2], 0 < g) ∧ 0 + [2].sum < [1, 2, 3].length ∧
      [1, 2, 3].length < 0 + [2].sum + 2 ∧ 0 + [2].sum + 2 < sizeMod ∧
      decompressFrames (atByte [1, 2, 3] 0) ([2] ++ 2 :: [5]) =
        .returned true (finished [1, 2, 3]) :=
  ⟨by decide, by decide, by decide, by decide,
    decompressFrames_exceeds [2] [5] 2 (by decide) (by decide) (by decide) (by decide)⟩

/-- **The frame after an exact fill.** When the partial sums hit the block size exactly,
the call after the one that filled the block fails its assertion. -/
theorem decompressFrames_exact (gs hs : List Nat) (f : Nat) (hpos : ∀ g ∈ gs, 0 < g)
    (hf : 0 < f) (heq : n + gs.sum = D.length) (hmod : D.length + f < sizeMod) :
    decompressFrames (atByte D n) (gs ++ f :: hs) = .assertFailed := by
  induction gs generalizing n with
  | nil =>
    simp only [List.sum_nil, Nat.add_zero] at heq
    subst heq
    simp [decompressFrames, decompressFrame_full hf hmod]
  | cons g gs ih =>
    simp only [List.sum_cons] at heq
    rw [List.cons_append, decompressFrames, decompressFrame_run (hpos g (List.mem_cons_self g gs))
      (by omega) (by omega)]
    exact ih (fun g hg => hpos g (List.mem_cons_of_mem _ hg)) (by omega)

end Runs

/-- **The exact fill.** A block that decodes to one byte, read in frames of one byte: the
first call fills the buffer and returns false, and the second fails
`assert(frame_size > 0)`. -/
theorem decompressFrame_exact_fill :
    decompressFrame (atByte [0] 0) 1 = .returned false (atByte [0] 1) ∧
      (atByte [0] 1).decompressed = [0] ∧
      decompressFrame (atByte [0] 1) 1 = .assertFailed ∧
      decompressFrames (atByte [0] 0) [1, 1] = .assertFailed :=
  ⟨decompressFrame_run (by decide) (by decide) (by decide), rfl,
    decompressFrame_full (by decide) (by decide),
    decompressFrames_exact [1] [] 1 (by decide) (by decide) (by decide) (by decide)⟩

end Dwarfs.Lzma
