/-
# liblzma return codes and `size_t` arithmetic

The vocabulary the LZMA codec (src/src/compression/lzma.cpp) shares between its
compressor and decompressor:

* `LzmaRet`, the `lzma_ret` codes with their numeric values, and `lzmaErrorString`, the
  table `lzma_error_desc` that `lzma_error_string` reads, with its fallback
  `unknown error {}`;
* `LzmaAction`, the two `lzma_action`s the codec passes to `lzma_code`;
* `sizeAdd` and `sizeSub`, addition and subtraction of `size_t` modulo `2^64`, with the
  lemmas that drop the modulus where nothing wraps.
-/
import Mathlib.Algebra.Group.Nat.Basic

namespace Dwarfs.Lzma

/-- `lzma_ret`. -/
inductive LzmaRet
  | ok
  | streamEnd
  | noCheck
  | unsupportedCheck
  | getCheck
  | memError
  | memlimitError
  | formatError
  | optionsError
  | dataError
  | bufError
  | progError
  deriving DecidableEq, Repr

/-- The numeric value of an `lzma_ret`. -/
def LzmaRet.toNat : LzmaRet → Nat
  | .ok => 0
  | .streamEnd => 1
  | .noCheck => 2
  | .unsupportedCheck => 3
  | .getCheck => 4
  | .memError => 5
  | .memlimitError => 6
  | .formatError => 7
  | .optionsError => 8
  | .dataError => 9
  | .bufError => 10
  | .progError => 11

/-- `lzma_error_string`: the text of `lzma_error_desc`, and `unknown error {}` for the
codes the table leaves out. -/
def lzmaErrorString : LzmaRet → String
  | .noCheck => "input stream has no integrity check"
  | .unsupportedCheck => "cannot calculate the integrity check"
  | .getCheck => "integrity check type is now available"
  | .memError => "cannot allocate memory"
  | .memlimitError => "memory usage limit was reached"
  | .formatError => "file format not recognized"
  | .optionsError => "invalid or unsupported options"
  | .dataError => "data is corrupt"
  | .bufError => "no progress is possible"
  | .progError => "programming error"
  | ret => "unknown error " ++ toString ret.toNat

/-- `lzma_action`: the codec uses `LZMA_RUN` and `LZMA_FINISH`. -/
inductive LzmaAction
  | run
  | finish
  deriving DecidableEq, Repr

/-- One more than the largest `size_t`. -/
def sizeMod : Nat := 2 ^ 64

/-- `a + b` in `size_t`. -/
def sizeAdd (a b : Nat) : Nat := (a + b) % sizeMod

/-- `a - b` in `size_t`, for `b < 2^64`. -/
def sizeSub (a b : Nat) : Nat := (a + sizeMod - b) % sizeMod

theorem sizeAdd_of_lt {a b : Nat} (h : a + b < sizeMod) : sizeAdd a b = a + b :=
  Nat.mod_eq_of_lt h

theorem sizeSub_of_le {a b : Nat} (ha : a < sizeMod) (h : b ≤ a) : sizeSub a b = a - b := by
  rw [sizeSub, show a + sizeMod - b = a - b + sizeMod by omega, Nat.add_mod_right]
  exact Nat.mod_eq_of_lt (by omega)

/-- `0 - 1` in `size_t` is the largest `size_t`. -/
theorem sizeSub_zero_one : sizeSub 0 1 = sizeMod - 1 := rfl

end Dwarfs.Lzma
