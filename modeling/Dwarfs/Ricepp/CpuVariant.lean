/-
# `create_codec`: which CPU-specific codec ricepp runs

`create_codec<uint16_t>` (src/ricepp/ricepp.cpp, lines 36–107) picks the codec for the CPU
variant that `get_cpu_variant` computes once per process from `__builtin_cpu_supports`,
and prints the variant's name on `std::cerr` once per process when
`RICEPP_SHOW_CPU_VARIANT` is set. A variant whose codec the build leaves out (its
`RICEPP_CPU_*` macro is not defined) has no `case` and falls to `default`, the fallback.

The two function-local statics, `variant` of `get_cpu_variant` and `_` of
`show_cpu_variant_once`, are the process state `Statics`; a static is initialised by the
first call that reaches it.

* `createCodecs_from_start`: over any sequence of calls from the start of the process,
  every codec is made for one variant, which the CPU supports and the build contains, and
  `std::cerr` gets at most one line, at the first call;
* `codecVariant_eq_hasBmi2`: the BMI2 codec runs exactly on a CPU with BMI2 that lacks
  AVX-512 VL or VBMI, so a build without the AVX-512 codec runs the fallback on a CPU that
  has all three.
-/
import Mathlib.Data.List.Basic

namespace Dwarfs.Ricepp

/-- `detail::cpu_variant`. -/
inductive CpuVariant
  | fallback
  | hasBmi2
  | hasBmi2Avx512
  deriving DecidableEq, Repr

/-- The name `create_codec` shows for a variant. -/
def CpuVariant.name : CpuVariant → String
  | .fallback => "fallback"
  | .hasBmi2 => "BMI2"
  | .hasBmi2Avx512 => "BMI2+AVX512"

/-- What `__builtin_cpu_supports` reports for the three features ricepp asks about. -/
structure CpuFeatures where
  avx512vl : Bool
  avx512vbmi : Bool
  bmi2 : Bool
  deriving DecidableEq, Repr

/-- The build: whether the CPU test is compiled in (not `_WIN32`, and the compiler has
`__builtin_cpu_supports`), and whether `RICEPP_CPU_BMI2_AVX512` and `RICEPP_CPU_BMI2` are
defined. -/
structure Build where
  cpuSupports : Bool
  bmi2Avx512 : Bool
  bmi2 : Bool
  deriving DecidableEq, Repr

/-- `get_cpu_variant_init`. -/
def getCpuVariantInit (b : Build) (f : CpuFeatures) : CpuVariant :=
  if b.cpuSupports then
    if f.avx512vl && f.avx512vbmi && f.bmi2 then .hasBmi2Avx512
    else if f.bmi2 then .hasBmi2
    else .fallback
  else .fallback

/-- The `switch` of `create_codec`: a variant has its `case` only when its codec is built,
and every other variant takes `default`. -/
def dispatch (b : Build) : CpuVariant → CpuVariant
  | .hasBmi2Avx512 => if b.bmi2Avx512 then .hasBmi2Avx512 else .fallback
  | .hasBmi2 => if b.bmi2 then .hasBmi2 else .fallback
  | .fallback => .fallback

/-- The function-local statics: `variant` of `get_cpu_variant` and `_` of
`show_cpu_variant_once`, each `none` until the first call that reaches it. -/
structure Statics where
  variant : Option CpuVariant
  shown : Option Bool
  deriving DecidableEq, Repr

/-- The statics at the start of the process. -/
def Statics.initial : Statics := ⟨none, none⟩

/-- `get_cpu_variant`. -/
def getCpuVariant (b : Build) (f : CpuFeatures) (s : Statics) : CpuVariant × Statics :=
  match s.variant with
  | some v => (v, s)
  | none => (getCpuVariantInit b f, { s with variant := some (getCpuVariantInit b f) })

/-- `show_cpu_variant`, where `showVar` is whether `RICEPP_SHOW_CPU_VARIANT` is set. -/
def showCpuVariant (showVar : Bool) (variant : String) : List String :=
  if showVar then ["ricepp: using " ++ variant ++ " CPU variant\n"] else []

/-- `show_cpu_variant_once`. -/
def showCpuVariantOnce (showVar : Bool) (variant : String) (s : Statics) :
    List String × Statics :=
  match s.shown with
  | some _ => ([], s)
  | none => (showCpuVariant showVar variant, { s with shown := some true })

/-- `create_codec<uint16_t>`: the variant of the codec it creates, what it prints on
`std::cerr`, and the statics after the call. -/
def createCodec (b : Build) (f : CpuFeatures) (showVar : Bool) (s : Statics) :
    CpuVariant × List String × Statics :=
  match getCpuVariant b f s with
  | (v, s) =>
    match showCpuVariantOnce showVar (dispatch b v).name s with
    | (out, s) => (dispatch b v, out, s)

/-- Calls of `create_codec` in turn, `showVar` per call: the variants of the codecs made, and
what `std::cerr` gets. -/
def createCodecs (b : Build) (f : CpuFeatures) :
    List Bool → Statics → List CpuVariant × List String
  | [], _ => ([], [])
  | showVar :: rest, s =>
    match createCodec b f showVar s with
    | (v, out, s) =>
      match createCodecs b f rest s with
      | (vs, outs) => (v :: vs, out ++ outs)

/-- The variant of every codec of a process. -/
def codecVariant (b : Build) (f : CpuFeatures) : CpuVariant := dispatch b (getCpuVariantInit b f)

/-- The CPU has the features a variant's codec uses. -/
def Supports (f : CpuFeatures) : CpuVariant → Prop
  | .hasBmi2Avx512 => f.avx512vl ∧ f.avx512vbmi ∧ f.bmi2
  | .hasBmi2 => f.bmi2
  | .fallback => True

/-- The build contains the variant's codec. -/
def Build.Contains (b : Build) : CpuVariant → Prop
  | .hasBmi2Avx512 => b.bmi2Avx512
  | .hasBmi2 => b.bmi2
  | .fallback => True

/-! ## One call -/

section Step

variable {b : Build} {f : CpuFeatures}

/-- The statics a process can be in: `variant` holds the variant of the CPU once set. -/
def Statics.Reachable (b : Build) (f : CpuFeatures) (s : Statics) : Prop :=
  s.variant = none ∨ s.variant = some (getCpuVariantInit b f)

theorem getCpuVariant_of_reachable {s : Statics} (hs : s.Reachable b f) :
    (getCpuVariant b f s).1 = getCpuVariantInit b f ∧
      (getCpuVariant b f s).2 = { s with variant := some (getCpuVariantInit b f) } := by
  obtain ⟨v, shown⟩ := s
  rcases hs with h | h <;> simp_all [getCpuVariant]

/-- A call of `create_codec` in a reachable state makes the process's codec, prints only if
`show_cpu_variant_once` had not run, and sets both statics. -/
theorem createCodec_of_reachable {s : Statics} (showVar : Bool) (hs : s.Reachable b f) :
    createCodec b f showVar s =
      (codecVariant b f,
        (if s.shown = none then showCpuVariant showVar (codecVariant b f).name else []),
        ⟨some (getCpuVariantInit b f), some (s.shown.getD true)⟩) := by
  obtain ⟨h1, h2⟩ := getCpuVariant_of_reachable hs
  obtain ⟨v, shown⟩ := s
  simp only [createCodec, codecVariant]
  rw [show getCpuVariant b f ⟨v, shown⟩ = (getCpuVariantInit b f,
    ⟨some (getCpuVariantInit b f), shown⟩) from Prod.ext h1 h2]
  cases shown <;> rfl

/-- After a call, `show_cpu_variant_once` has run. -/
theorem createCodecs_shown {s : Statics} (shows : List Bool) (hs : s.Reachable b f)
    (hshown : s.shown ≠ none) :
    createCodecs b f shows s = (shows.map fun _ => codecVariant b f, []) := by
  induction shows generalizing s with
  | nil => rfl
  | cons showVar rest ih =>
    simp only [createCodecs, createCodec_of_reachable showVar hs, hshown, if_false]
    rw [ih (.inr rfl) (by simp)]
    rfl

/-- `get_cpu_variant_init` returns a variant the CPU supports. -/
theorem supports_getCpuVariantInit : Supports f (getCpuVariantInit b f) := by
  unfold getCpuVariantInit
  split_ifs <;> simp_all [Supports]

/-- The `switch` keeps a supported variant only when the build contains its codec. -/
theorem dispatch_supports {v : CpuVariant} (hv : Supports f v) :
    Supports f (dispatch b v) ∧ b.Contains (dispatch b v) := by
  cases v with
  | fallback => exact ⟨trivial, trivial⟩
  | _ => simp only [dispatch]; split_ifs <;> simp_all [Supports, Build.Contains]

end Step

/-! ## A process -/

/-- **One variant per process.** Over any sequence of `create_codec` calls from the start of
the process, every codec is made for the one variant `codecVariant`, which the CPU supports
and the build contains, and `std::cerr` gets one line, at the first call, exactly when
`RICEPP_SHOW_CPU_VARIANT` is set then. -/
theorem createCodecs_from_start (b : Build) (f : CpuFeatures) (shows : List Bool) :
    (createCodecs b f shows .initial).1 = shows.map (fun _ => codecVariant b f) ∧
      Supports f (codecVariant b f) ∧ b.Contains (codecVariant b f) ∧
      (createCodecs b f shows .initial).2 =
        match shows with
        | showVar :: _ => showCpuVariant showVar (codecVariant b f).name
        | [] => [] := by
  have hvariant := dispatch_supports (b := b) (supports_getCpuVariantInit (b := b) (f := f))
  cases shows with
  | nil => exact ⟨rfl, hvariant.1, hvariant.2, rfl⟩
  | cons showVar rest =>
    simp only [createCodecs, createCodec_of_reachable (s := .initial) showVar (.inl rfl)]
    rw [createCodecs_shown rest (.inr rfl) (by simp)]
    exact ⟨rfl, hvariant.1, hvariant.2, List.append_nil _⟩

/-- **The BMI2 codec.** A process runs the BMI2 codec exactly when the build tests the CPU
and contains the BMI2 codec, and the CPU has BMI2 but lacks AVX-512 VL or VBMI: on a CPU
with all three, a build without the AVX-512 codec runs the fallback, not the BMI2 codec. -/
theorem codecVariant_eq_hasBmi2 (b : Build) (f : CpuFeatures) :
    codecVariant b f = .hasBmi2 ↔
      b.cpuSupports ∧ b.bmi2 ∧ f.bmi2 ∧ ¬(f.avx512vl ∧ f.avx512vbmi) := by
  unfold codecVariant getCpuVariantInit
  split_ifs <;> simp only [dispatch] <;> (try split) <;> simp_all

end Dwarfs.Ricepp
