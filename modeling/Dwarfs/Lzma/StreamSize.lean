/-
# `get_uncompressed_size`: the uncompressed size of a block from its index

`lzma_block_decompressor::get_uncompressed_size` (src/src/compression/lzma.cpp, lines
335–401) reads an `.xz` stream from its end: it skips the zero words of stream padding
from the last word on, decodes the 12-byte stream footer the padding ends at, and feeds
the `backward_size` bytes before the footer to liblzma's index decoder.

The buffer is a `List UInt8` and every load goes through `readAt`, which returns `none`
for a range not inside `[0, size)`; such a load ends the run in `SizeError.outOfBounds`.
The padding loop keeps both of the source's cursors: `pos`, a `file_off_t`, and `ptr`,
the byte offset of the `uint32_t` it points at. The liblzma calls are a `Liblzma`
parameter that sees only the bytes the source hands it.

* `skipPadding_spec`: the loop keeps `ptr = pos + 8` and `12 ≤ pos`, so each word it
  loads lies inside the buffer, and it ends with a footer position inside the buffer;
* `getUncompressedSize_inBounds`: for every buffer and every behaviour of liblzma, the
  function terminates, never loads outside the buffer, and either throws `runtime_error`
  or returns the uncompressed size of the index that the footer after the padding
  locates, decoded to its end.
-/
import Dwarfs.Lzma.Basic
import Mathlib.Tactic.SplitIfs

namespace Dwarfs.Lzma

/-- `LZMA_STREAM_HEADER_SIZE`, the size of a stream header and of a stream footer. -/
def streamHeaderSize : Nat := 12

/-- `LZMA_BACKWARD_SIZE_MAX`: liblzma's bound on the `backward_size` of stream flags. -/
def backwardSizeMax : Nat := 2 ^ 34

/-- What the source reads from a decoded `lzma_index`: `lzma_index_total_size` and
`lzma_index_uncompressed_size`. -/
structure LzmaIndex where
  totalSize : Nat
  uncompressedSize : Nat
  deriving DecidableEq, Repr

/-- The liblzma calls of `get_uncompressed_size`, as functions of what each is given.
`lzma_stream_footer_decode` reads the 12 footer bytes and returns an error or the
`backward_size` of the flags, which liblzma keeps at most `LZMA_BACKWARD_SIZE_MAX`;
`lzma_index_decoder` returns its setup code; `lzma_code` on the index decoder reads the
bytes handed to it and returns its code, what is left in `avail_in`, and the index. -/
structure Liblzma where
  footerDecode : List UInt8 → Except LzmaRet { b : Nat // b ≤ backwardSizeMax }
  indexDecoder : LzmaRet
  indexCode : List UInt8 → LzmaRet × Nat × LzmaIndex

/-- How `get_uncompressed_size` ends when it returns no size: a `runtime_error`, or a
load outside the buffer. -/
inductive SizeError
  | runtime (what : String)
  | outOfBounds
  deriving DecidableEq, Repr

/-- The `n` bytes at offset `i`, or `none` when `[i, i + n)` is not inside the buffer. -/
def readAt (data : List UInt8) (i : Int) (n : Nat) : Option (List UInt8) :=
  if 0 ≤ i ∧ i + n ≤ data.length then some ((data.drop i.toNat).take n) else none

/-- A load of `n` bytes at offset `i`. -/
def load (data : List UInt8) (i : Int) (n : Nat) : Except SizeError (List UInt8) :=
  match readAt data i n with
  | some bytes => .ok bytes
  | none => .error .outOfBounds

/-- `static_cast<lzma_vli>` of a `file_off_t`. The model's `file_off_t` is an unbounded
integer, which the source's 64-bit one equals for every buffer shorter than `2^63` bytes,
and the source casts it only where it is not negative. -/
def toVli (x : Int) : Nat := x.toNat

/-- The loop `while (*ptr == 0)`: `pos -= 4; --ptr;` and the check of `pos` against
twice the header size. It returns `pos` at the first word that is not zero. -/
def skipPadding (data : List UInt8) (pos ptr : Int) : Except SizeError Int :=
  match load data ptr 4 with
  | .error e => .error e
  | .ok word =>
    if word.all (· == 0) then
      if pos - 4 < 2 * streamHeaderSize then .error (.runtime "data error (stream padding)")
      else skipPadding data (pos - 4) (ptr - 4)
    else .ok pos
termination_by pos.toNat
decreasing_by simp only [streamHeaderSize] at *; omega

/-- `get_uncompressed_size` after the footer at `pos` gave the index size: the check of
the index size against `pos`, the index decoder, and the check of the index's total size
against what is left before the index. -/
def decodeIndex (lib : Liblzma) (data : List UInt8) (pos : Int) (indexSize : Nat) :
    Except SizeError Nat :=
  if toVli pos < (indexSize + streamHeaderSize) % 2 ^ 64 then
    .error (.runtime "data error (index size)")
  else
    let pos := pos - indexSize
    if lib.indexDecoder ≠ .ok then
      .error (.runtime ("lzma_index_decoder: " ++ lzmaErrorString lib.indexDecoder))
    else
      match load data pos indexSize with
      | .error e => .error e
      | .ok bytes =>
        match lib.indexCode bytes with
        | (ret, availIn, index) =>
          if ret ≠ .streamEnd ∨ availIn ≠ 0 then
            .error (.runtime ("lzma_code(): " ++ lzmaErrorString ret ++ " (avail_in=" ++
              toString availIn ++ ")"))
          else if toVli (pos - streamHeaderSize) < index.totalSize then
            .error (.runtime "data error (index total size)")
          else .ok index.uncompressedSize

/-- `lzma_block_decompressor::get_uncompressed_size`. -/
def getUncompressedSize (lib : Liblzma) (data : List UInt8) : Except SizeError Nat :=
  if data.length < 2 * streamHeaderSize then
    .error (.runtime "lzma compressed block is too small")
  else
    match skipPadding data (data.length - streamHeaderSize) (data.length - 4) with
    | .error e => .error e
    | .ok pos =>
      match load data pos streamHeaderSize with
      | .error e => .error e
      | .ok footer =>
        match lib.footerDecode footer with
        | .error ret => .error (.runtime ("lzma_stream_footer_decode: " ++ lzmaErrorString ret))
        | .ok backwardSize => decodeIndex lib data pos backwardSize.val

/-! ## Loads inside the buffer -/

section Loads

variable {data : List UInt8} {i : Int} {n : Nat}

theorem readAt_of_le (h0 : 0 ≤ i) (h : i + n ≤ data.length) :
    readAt data i n = some ((data.drop i.toNat).take n) := by
  rw [readAt, if_pos ⟨h0, h⟩]

theorem load_of_le (h0 : 0 ≤ i) (h : i + n ≤ data.length) :
    load data i n = .ok ((data.drop i.toNat).take n) := by
  rw [load, readAt_of_le h0 h]

end Loads

/-- **The padding loop.** Started with `ptr = pos + 8` and the word at `ptr` inside the
buffer, the loop keeps `ptr = pos + 8`, loads only words inside the buffer, and either
throws the padding error or returns a `pos` at least as large as the header check asks
for, whose footer lies inside the buffer. -/
theorem skipPadding_spec (data : List UInt8) (pos ptr : Int) (hptr : ptr = pos + 8)
    (hpos : 12 ≤ pos) (hend : pos + 12 ≤ data.length) :
    skipPadding data pos ptr = .error (.runtime "data error (stream padding)") ∨
      ∃ pos', skipPadding data pos ptr = .ok pos' ∧ 12 ≤ pos' ∧ pos' + 12 ≤ data.length := by
  induction pos, ptr using skipPadding.induct data with
  | case1 pos ptr e he => rw [hptr, load_of_le (by omega) (by omega)] at he; cases he
  | case2 pos ptr word hw hz hlt =>
    left
    rw [skipPadding, hw]
    simp [hz, hlt]
  | case3 pos ptr word hw hz hlt ih =>
    rw [skipPadding, hw]
    simp only [hz, if_true, hlt, if_false]
    simp only [streamHeaderSize] at hlt
    exact ih (by omega) (by omega) (by omega)
  | case4 pos ptr word hw hz =>
    right
    rw [skipPadding, hw]
    simp [hz, hpos, hend]

/-- What `decodeIndex` returns on success: the uncompressed size of the `indexSize` bytes
before `pos`, which liblzma decoded to `LZMA_STREAM_END` with nothing left in `avail_in`
and whose total size fits before them. -/
def IndexDecoded (lib : Liblzma) (data : List UInt8) (pos : Int) (indexSize size : Nat) :
    Prop :=
  ∃ bytes, readAt data (pos - indexSize) indexSize = some bytes ∧
    (lib.indexCode bytes).1 = .streamEnd ∧ (lib.indexCode bytes).2.1 = 0 ∧
    (lib.indexCode bytes).2.2.totalSize ≤ toVli (pos - indexSize - streamHeaderSize) ∧
    size = (lib.indexCode bytes).2.2.uncompressedSize

/-- After a footer inside the buffer, the index is loaded from inside the buffer, and a
size is returned only when it decoded. -/
theorem decodeIndex_inBounds (lib : Liblzma) (data : List UInt8) (pos : Int) (indexSize : Nat)
    (hpos : 0 ≤ pos) (hend : pos ≤ data.length) (hidx : indexSize ≤ backwardSizeMax) :
    (∃ what, decodeIndex lib data pos indexSize = .error (.runtime what)) ∨
      ∃ size, decodeIndex lib data pos indexSize = .ok size ∧
        IndexDecoded lib data pos indexSize size := by
  unfold decodeIndex
  rw [toVli, Nat.mod_eq_of_lt (by simp only [backwardSizeMax, streamHeaderSize] at hidx ⊢; omega)]
  split_ifs with hsize hinit
  · exact .inl ⟨_, rfl⟩
  · exact .inl ⟨_, rfl⟩
  simp only [streamHeaderSize] at hsize
  have hread : readAt data (pos - indexSize) indexSize = some _ :=
    readAt_of_le (by omega) (by omega)
  simp only [load, hread]
  split_ifs with hret htotal
  · exact .inl ⟨_, rfl⟩
  · exact .inl ⟨_, rfl⟩
  · simp only [not_or, ne_eq, Decidable.not_not] at hret
    exact .inr ⟨_, rfl, _, hread, hret.1, hret.2, Nat.not_lt.mp htotal, rfl⟩

/-- **`get_uncompressed_size` stays inside the buffer.** For every buffer and every
behaviour of liblzma, the function terminates and never loads outside `[0, size)`: it
throws a `runtime_error`, or the padding loop stops at a position `pos` whose 12 footer
bytes decode to `backward_size`, the `backward_size` bytes before `pos` decode as an
index to `LZMA_STREAM_END` with `avail_in = 0` and a total size that fits before them,
and the function returns that index's uncompressed size. -/
theorem getUncompressedSize_inBounds (lib : Liblzma) (data : List UInt8) :
    (∃ what, getUncompressedSize lib data = .error (.runtime what)) ∨
      ∃ pos footer b size,
        skipPadding data (data.length - streamHeaderSize) (data.length - 4) = .ok pos ∧
        readAt data pos streamHeaderSize = some footer ∧ lib.footerDecode footer = .ok b ∧
        IndexDecoded lib data pos b.val size ∧ getUncompressedSize lib data = .ok size := by
  unfold getUncompressedSize
  split_ifs with hsmall
  · exact .inl ⟨_, rfl⟩
  simp only [streamHeaderSize, Nat.not_lt] at hsmall
  rcases skipPadding_spec data (data.length - streamHeaderSize) (data.length - 4)
    (by simp only [streamHeaderSize]; omega) (by simp only [streamHeaderSize]; omega)
    (by simp only [streamHeaderSize]; omega) with hp | ⟨pos, hp, hpos, hend⟩
  · exact .inl ⟨_, by rw [hp]⟩
  have hfoot : readAt data pos streamHeaderSize = some _ :=
    readAt_of_le (by omega) (by simpa only [streamHeaderSize] using hend)
  simp only [hp, load, hfoot]
  rcases hb : lib.footerDecode _ with ret | b
  · exact .inl ⟨_, rfl⟩
  rcases decodeIndex_inBounds lib data pos b.val (by omega) (by omega) b.property with
    h | ⟨size, h, hidx⟩
  · exact .inl (by simp only [h])
  · exact .inr ⟨pos, _, b, size, rfl, hfoot, hb, hidx, by simp only [h]⟩

end Dwarfs.Lzma
