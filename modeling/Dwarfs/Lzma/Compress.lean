/-
# `compress`: the plain and the BCJ encodings of a block

`lzma_block_compressor::compress(data, filters)` (src/src/compression/lzma.cpp, lines
205–244) encodes the block with `LZMA_FINISH` into a buffer of `data.size() - 1` bytes,
one less than the input, and throws `bad_compression_ratio_error` when `lzma_code`
returns `LZMA_OK`, that is when the encoding does not fit. `compress(data, metadata)`
(lines 246–263) encodes with LZMA2 alone and, when a binary mode is configured, once more
with the BCJ filter before LZMA2, and keeps the shorter.

The encoders are a `StreamEncoder` parameter: any function of the filter chain and the
input. The buffer's size is computed in `size_t`, and a `std::vector` longer than
`max_size()` throws `std::length_error`.

* `compressWith_eq`, `compressWith_nil`: one encoding returns its stream exactly when it
  is shorter than the input; the empty input wraps the buffer size to `2^64 - 1`;
* `compress_spec`: `compress` returns the shorter configured encoding when every
  configured encoding is shorter than the input, and throws otherwise.

So the second encoding does not replace a first that did not fit, and a configured BCJ
encoding that does not fit makes `compress` throw although the plain one fits
(`compress_partial_fit`).
-/
import Dwarfs.Lzma.Basic
import Mathlib.Tactic.SplitIfs

namespace Dwarfs.Lzma

/-- The BCJ filters of `kBinaryModes`. -/
inductive BinaryMode
  | x86
  | powerpc
  | ia64
  | arm
  | armthumb
  | sparc
  deriving DecidableEq, Repr

/-- The filter chains `compress` hands `lzma_stream_encoder`: LZMA2 alone
(`&filters[1]`), or the configured BCJ filter before LZMA2 (`filters.data()`). -/
inductive FilterChain
  | lzma2
  | bcjLzma2 (mode : BinaryMode)
  deriving DecidableEq, Repr

/-- liblzma's stream encoder, as a function of the filter chain: the code
`lzma_stream_encoder` returns, and the complete stream the encoder turns an input into. -/
structure StreamEncoder where
  init : FilterChain → LzmaRet
  encode : FilterChain → List UInt8 → List UInt8

/-- `lzma_code(&s, LZMA_FINISH)` on the whole input with room for `availOut` bytes:
`LZMA_STREAM_END` and the stream when it fits, `LZMA_OK` and the bytes that fit when it
does not. -/
def encodeFinish (enc : StreamEncoder) (chain : FilterChain) (data : List UInt8)
    (availOut : Nat) : LzmaRet × List UInt8 :=
  let out := enc.encode chain data
  if out.length ≤ availOut then (.streamEnd, out) else (.ok, out.take availOut)

/-- What `compress` throws. -/
inductive CompressError
  /-- `runtime_error`. -/
  | runtime (what : String)
  /-- `bad_compression_ratio_error`. -/
  | badCompressionRatio
  /-- `std::length_error` from a `std::vector` longer than `max_size()`. -/
  | lengthError
  deriving DecidableEq, Repr

/-- `std::vector<uint8_t>::max_size()`: `PTRDIFF_MAX`. -/
def vectorMaxSize : Nat := 2 ^ 63 - 1

/-- `lzma_block_compressor::compress(data, filters)`. The bytes `lzma_code` wrote are
what `compressed.resize(compressed.size() - s.avail_out)` keeps. -/
def compressWith (enc : StreamEncoder) (data : List UInt8) (chain : FilterChain) :
    Except CompressError (List UInt8) :=
  if enc.init chain ≠ .ok then
    .error (.runtime ("lzma_stream_encoder: " ++ lzmaErrorString (enc.init chain)))
  else
    let size := sizeSub data.length 1
    if vectorMaxSize < size then .error .lengthError
    else
      match encodeFinish enc chain data size with
      | (ret, compressed) =>
        if ret = .ok then .error .badCompressionRatio
        else if ret = .streamEnd then .ok compressed
        else .error (.runtime ("LZMA compression failed: " ++ lzmaErrorString ret))

/-- `lzma_block_compressor::compress(data, metadata)` with the configured binary mode
`binary_vli_`, where `none` is `LZMA_VLI_UNKNOWN`. -/
def compress (enc : StreamEncoder) (binary : Option BinaryMode) (data : List UInt8) :
    Except CompressError (List UInt8) :=
  match compressWith enc data .lzma2 with
  | .error e => .error e
  | .ok best =>
    match binary with
    | none => .ok best
    | some mode =>
      match compressWith enc data (.bcjLzma2 mode) with
      | .error e => .error e
      | .ok compressed => .ok (if compressed.length < best.length then compressed else best)

/-- The filter chains `compress` encodes with. -/
def configured (binary : Option BinaryMode) : List FilterChain :=
  .lzma2 :: binary.toList.map .bcjLzma2

/-! ## One encoding -/

section Encoding

variable {enc : StreamEncoder} {data : List UInt8} {chain : FilterChain}

/-- A non-empty input that fits a `std::vector` gets its encoding back exactly when the
encoding is shorter. -/
theorem compressWith_eq (hinit : enc.init chain = .ok) (hne : data ≠ [])
    (hlen : data.length ≤ 2 ^ 63) :
    compressWith enc data chain =
      if (enc.encode chain data).length < data.length then .ok (enc.encode chain data)
      else .error .badCompressionRatio := by
  have hpos : 0 < data.length := List.length_pos.mpr hne
  have hsize : sizeSub data.length 1 = data.length - 1 :=
    sizeSub_of_le (by simp only [sizeMod]; omega) hpos
  simp only [compressWith, hinit, ne_eq, not_true_eq_false, if_false, hsize, encodeFinish]
  rw [if_neg (by simp only [vectorMaxSize]; omega)]
  by_cases hfit : (enc.encode chain data).length < data.length
  · simp [hfit, show (enc.encode chain data).length ≤ data.length - 1 by omega]
  · simp [hfit, show ¬(enc.encode chain data).length ≤ data.length - 1 by omega]

/-- The empty input asks for a buffer of `0 - 1` bytes, the largest `size_t`. -/
theorem compressWith_nil (hinit : enc.init chain = .ok) :
    compressWith enc [] chain = .error .lengthError := by
  simp [compressWith, hinit, sizeSub_zero_one, sizeMod, vectorMaxSize]

end Encoding

/-- **What `compress` returns.** With encoders that start, a non-empty input that fits a
`std::vector` gives the shorter configured encoding, the plain one on a tie, when every
configured encoding is shorter than the input, and `bad_compression_ratio_error` when
one is not; the empty input throws `std::length_error`. -/
theorem compress_spec (enc : StreamEncoder) (binary : Option BinaryMode) (data : List UInt8)
    (hinit : ∀ chain, enc.init chain = .ok) (hlen : data.length ≤ 2 ^ 63) :
    compress enc binary data =
      if data = [] then .error .lengthError
      else if ∀ chain ∈ configured binary, (enc.encode chain data).length < data.length then
        .ok (match binary with
          | none => enc.encode .lzma2 data
          | some mode =>
            if (enc.encode (.bcjLzma2 mode) data).length < (enc.encode .lzma2 data).length
            then enc.encode (.bcjLzma2 mode) data else enc.encode .lzma2 data)
      else .error .badCompressionRatio := by
  by_cases hne : data = []
  · subst hne
    simp [compress, compressWith_nil (hinit _)]
  simp only [compress, compressWith_eq (hinit _) hne hlen, hne, if_false, configured]
  by_cases hplain : (enc.encode .lzma2 data).length < data.length
  · cases binary with
    | none => simp [hplain]
    | some mode =>
      by_cases hbcj : (enc.encode (.bcjLzma2 mode) data).length < data.length <;>
        simp [hplain, hbcj]
  · simp [hplain]

/-- Encodings of three, one and two bytes for a three-byte block with the ARM filter: the
BCJ encoding is kept. -/
theorem compress_spec_arm :
    let enc : StreamEncoder :=
      ⟨fun _ => .ok, fun chain data => if chain = .lzma2 then data.take 2 else data.take 1⟩
    (∀ chain, enc.init chain = .ok) ∧ [0, 0, 0].length ≤ 2 ^ 63 ∧
      compress enc (some .arm) [0, 0, 0] =
        if ([0, 0, 0] : List UInt8) = [] then .error .lengthError
        else if ∀ chain ∈ configured (some .arm), (enc.encode chain [0, 0, 0]).length < 3 then
          .ok (if (enc.encode (.bcjLzma2 .arm) [0, 0, 0]).length <
              (enc.encode .lzma2 [0, 0, 0]).length
            then enc.encode (.bcjLzma2 .arm) [0, 0, 0] else enc.encode .lzma2 [0, 0, 0])
        else .error .badCompressionRatio :=
  ⟨fun _ => rfl, by decide, compress_spec _ (some .arm) [0, 0, 0] (fun _ => rfl) (by decide)⟩

/-- **The configured encodings are not compared for fit.** A block of two bytes whose plain
encoding is one byte and whose BCJ encoding is two bytes makes `compress` throw
`bad_compression_ratio_error`, and so does one whose BCJ encoding is one byte and whose
plain encoding is two bytes; the empty block throws `std::length_error`. -/
theorem compress_partial_fit :
    compress ⟨fun _ => .ok, fun chain data => if chain = .lzma2 then data.take 1 else data⟩
        (some .x86) [0, 0] = .error .badCompressionRatio ∧
      compress ⟨fun _ => .ok, fun chain data => if chain = .lzma2 then data else data.take 1⟩
        (some .x86) [0, 0] = .error .badCompressionRatio ∧
      compress ⟨fun _ => .ok, fun _ data => data⟩ none [] = .error .lengthError :=
  ⟨rfl, rfl, rfl⟩

end Dwarfs.Lzma
