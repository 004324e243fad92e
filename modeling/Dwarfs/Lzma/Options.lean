/-
# The LZMA compressor's options

The constructor of `lzma_block_compressor` (src/src/compression/lzma.cpp, lines 138–204)
reads `level` (default 9), `extreme` (default false), `binary`, `dict_size`, `mode`, `mf`,
`nice` and `depth` from its `option_map`, formats its description, looks the binary mode
up in `kBinaryModes`, loads the LZMA preset of the level, and then overrides the preset's
fields with the options given. `lzma_compression_factory` (lines 409–450) makes a
compressor from an `option_map`; the help text it lists in `options_` is read by no
modelled function and is left out.

`find_option` reads the `sorted_array_map`s `kBinaryModes`, `kCompressionModes` and
`kMatchFinders`, held here as lists in the order of their keys. `lzma_lzma_preset` is a
parameter. `1 << *dict_size` shifts the `int` `1`: C++20 defines
the shift below 32, the shift by 31 giving `INT_MIN`, which the `uint32_t` field stores as
`2^31`; a larger shift is undefined behaviour, the outcome `undefinedShift`.

* `findOption_eq_ok`, `findOption_eq_error`: `find_option` returns a value exactly for a
  key of its table, and throws `unknown {what} '{name}'` for any other name;
* `lzmaBlockCompressor_eq_ok`: the constructor returns exactly when the binary mode, the
  compression mode and the match finder are keys of their tables, the preset is
  supported and the dictionary shift is below 32, and then holds the preset with the
  options given written over it: the ranges the factory advertises for `level`,
  `dict_size`, `nice` and `depth` are not checked.
-/
import Dwarfs.Except
import Dwarfs.Lzma.Compress

namespace Dwarfs.Lzma

/-- `lzma_mode`. -/
inductive LzmaMode
  | fast
  | normal
  deriving DecidableEq, Repr

/-- `lzma_match_finder`. -/
inductive LzmaMatchFinder
  | hc3
  | hc4
  | bt2
  | bt3
  | bt4
  deriving DecidableEq, Repr

/-- `kBinaryModes`. -/
def kBinaryModes : List (String × BinaryMode) :=
  [("arm", .arm), ("armthumb", .armthumb), ("ia64", .ia64), ("powerpc", .powerpc),
    ("sparc", .sparc), ("x86", .x86)]

/-- `kCompressionModes`. -/
def kCompressionModes : List (String × LzmaMode) := [("fast", .fast), ("normal", .normal)]

/-- `kMatchFinders`. -/
def kMatchFinders : List (String × LzmaMatchFinder) :=
  [("bt2", .bt2), ("bt3", .bt3), ("bt4", .bt4), ("hc3", .hc3), ("hc4", .hc4)]

/-- `find_option`: the value of `name`, or `runtime_error` with `unknown {what} '{name}'`. -/
def findOption {α : Type} (options : List (String × α)) (name what : String) :
    Except String α :=
  match options.lookup name with
  | some value => .ok value
  | none => .error ("unknown " ++ what ++ " \x27" ++ name ++ "\x27")

/-- The fields of `lzma_options_lzma` that the constructor writes. -/
structure LzmaOptionsLzma where
  dictSize : UInt32
  mode : LzmaMode
  mf : LzmaMatchFinder
  niceLen : UInt32
  depth : UInt32
  deriving DecidableEq, Repr

/-- What the constructor reads from its `option_map`: `om.get<unsigned>("level", 9U)`,
`om.get<bool>("extreme", false)`, and `om.get_optional` for the others. -/
structure LzmaCompressorOptions where
  level : UInt32
  extreme : Bool
  binary : Option String
  dictSize : Option UInt32
  mode : Option String
  mf : Option String
  nice : Option UInt32
  depth : Option UInt32
  deriving DecidableEq, Repr

/-- What the constructor stops with: a `runtime_error`, or undefined behaviour from
`1 << *dict_size`. -/
inductive LzmaOptionsError
  | runtime (what : String)
  | undefinedShift
  deriving DecidableEq, Repr

/-- `lzma_block_compressor`'s state: `opt_lzma_`, `binary_vli_` (`none` for
`LZMA_VLI_UNKNOWN`) and `description_`. -/
structure LzmaBlockCompressor where
  optLzma : LzmaOptionsLzma
  binaryVli : Option BinaryMode
  description : String
  deriving DecidableEq, Repr

/-- `LZMA_PRESET_EXTREME`. -/
def lzmaPresetExtreme : UInt32 := 0x80000000

/-- `get_preset`. -/
def getPreset (level : UInt32) (extreme : Bool) : UInt32 :=
  if extreme then level ||| lzmaPresetExtreme else level

/-- `get_vli`. -/
def getVli (binary : Option String) : Except String (Option BinaryMode) :=
  match binary with
  | none => .ok none
  | some mode => (findOption kBinaryModes mode "binary mode").map some

/-- `1 << *dict_size`, stored in the `uint32_t` `dict_size`. -/
def dictSizeOf (d : UInt32) : Option UInt32 :=
  if d < 32 then some (1 <<< d) else none

/-- `description_`. -/
def lzmaDescription (o : LzmaCompressorOptions) : String :=
  "lzma [level=" ++ toString o.level ++
    (o.dictSize.map fun d => ", dict_size=" ++ toString d).getD "" ++
    (if o.extreme then ", extreme" else "") ++
    (o.binary.map fun b => ", binary=" ++ b).getD "" ++
    (o.mode.map fun m => ", mode=" ++ m).getD "" ++
    (o.mf.map fun m => ", mf=" ++ m).getD "" ++
    (o.nice.map fun n => ", nice=" ++ toString n).getD "" ++
    (o.depth.map fun d => ", depth=" ++ toString d).getD "" ++ "]"

/-- `if (dict_size) { opt_lzma_.dict_size = 1 << *dict_size; }` on the preset's value. -/
def setDictSize (dictSize : Option UInt32) (current : UInt32) :
    Except LzmaOptionsError UInt32 :=
  match dictSize with
  | none => .ok current
  | some d =>
    match dictSizeOf d with
    | some size => .ok size
    | none => .error .undefinedShift

/-- `if (x) { field = find_option(table, *x, what); }` on the preset's value, for `mode` and
`mf`. -/
def setOption {α : Type} (options : List (String × α)) (name : Option String) (what : String)
    (current : α) : Except LzmaOptionsError α :=
  match name with
  | none => .ok current
  | some n => (findOption options n what).mapError .runtime

/-- The overrides after the preset, in the constructor's order: `dict_size`, `mode`, `mf`,
`nice` and `depth`. -/
def overrideOptions (o : LzmaCompressorOptions) (opt : LzmaOptionsLzma) :
    Except LzmaOptionsError LzmaOptionsLzma := do
  let dictSize ← setDictSize o.dictSize opt.dictSize
  let mode ← setOption kCompressionModes o.mode "compression mode" opt.mode
  let mf ← setOption kMatchFinders o.mf "match finder" opt.mf
  pure { dictSize, mode, mf, niceLen := o.nice.getD opt.niceLen, depth := o.depth.getD opt.depth }

/-- `lzma_lzma_preset(&opt_lzma_, preset)`, with `presetOf` `none` where it returns true,
for a preset it does not support. -/
def loadPreset (presetOf : UInt32 → Option LzmaOptionsLzma) (preset : UInt32) :
    Except LzmaOptionsError LzmaOptionsLzma :=
  match presetOf preset with
  | some opt => .ok opt
  | none => .error (.runtime "unsupported preset, possibly a bug")

/-- The constructor `lzma_block_compressor(option_map&)`. -/
def lzmaBlockCompressor (presetOf : UInt32 → Option LzmaOptionsLzma)
    (o : LzmaCompressorOptions) : Except LzmaOptionsError LzmaBlockCompressor := do
  let description := lzmaDescription o
  let binaryVli ← (getVli o.binary).mapError .runtime
  let opt ← loadPreset presetOf (getPreset o.level o.extreme)
  let opt ← overrideOptions o opt
  pure ⟨opt, binaryVli, description⟩

/-! ## What the constructor accepts -/

/-- The name given for an option, if any, is a key of the option's table. -/
def Known {α : Type} (options : List (String × α)) (name : Option String) : Prop :=
  ∀ n ∈ name, (options.lookup n).isSome

/-- The preset `opt` with the options given written over it. -/
def LzmaCompressorOptions.applyTo (o : LzmaCompressorOptions) (opt : LzmaOptionsLzma) :
    LzmaOptionsLzma where
  dictSize := (o.dictSize.map fun d => (1 : UInt32) <<< d).getD opt.dictSize
  mode := (o.mode.bind kCompressionModes.lookup).getD opt.mode
  mf := (o.mf.bind kMatchFinders.lookup).getD opt.mf
  niceLen := o.nice.getD opt.niceLen
  depth := o.depth.getD opt.depth

section Accepts

variable {α : Type} {options : List (String × α)} {name what : String}

theorem findOption_eq_ok {v : α} :
    findOption options name what = .ok v ↔ options.lookup name = some v := by
  cases h : options.lookup name <;> simp [findOption, h]

/-- **`find_option`.** It returns a value exactly for a key of its table, and throws
`unknown {what} '{name}'` for any other name. -/
theorem findOption_eq_error {e : String} :
    findOption options name what = .error e ↔
      options.lookup name = none ∧ e = "unknown " ++ what ++ " \x27" ++ name ++ "\x27" := by
  cases h : options.lookup name <;> simp [findOption, h]
  exact ⟨fun h => h.symm, fun h => h.symm⟩

/-- `mode=turbo` is rejected with the name in quotes. -/
example : lzmaBlockCompressor (fun _ => some ⟨1, .normal, .bt4, 64, 0⟩)
    ⟨9, false, none, none, some "turbo", none, none, none⟩ =
      .error (.runtime "unknown compression mode \x27turbo\x27") := rfl

theorem getVli_eq_ok {binary : Option String} {v : Option BinaryMode} :
    getVli binary = .ok v ↔
      Known kBinaryModes binary ∧ v = binary.bind kBinaryModes.lookup := by
  cases binary with
  | none => exact ⟨fun h => ⟨fun _ hn => (nomatch hn), (Except.ok.inj h).symm⟩,
      fun ⟨_, hv⟩ => hv ▸ rfl⟩
  | some b =>
    cases h : kBinaryModes.lookup b with
    | none =>
      simp only [getVli, findOption, h, Except.map]
      exact ⟨nofun, fun ⟨hk, _⟩ => by simpa [h] using hk b rfl⟩
    | some m =>
      simp only [getVli, findOption, h, Except.map, Except.ok.injEq, Option.some_bind]
      exact ⟨fun hv => ⟨fun n hn => by cases hn; simp [h], hv.symm⟩,
        fun ⟨_, hv⟩ => hv.symm⟩

theorem setDictSize_eq_ok {dictSize : Option UInt32} {current size : UInt32} :
    setDictSize dictSize current = .ok size ↔
      (∀ d ∈ dictSize, d < 32) ∧
        size = (dictSize.map fun d => (1 : UInt32) <<< d).getD current := by
  cases dictSize with
  | none => exact ⟨fun h => ⟨fun _ hd => (nomatch hd), (Except.ok.inj h).symm⟩,
      fun ⟨_, h⟩ => h ▸ rfl⟩
  | some d =>
    by_cases hd : d < 32
    · simp [setDictSize, dictSizeOf, hd, eq_comm]
    · simp [setDictSize, dictSizeOf, hd]

theorem setOption_eq_ok {current v : α} {name : Option String} :
    setOption options name what current = .ok v ↔
      Known options name ∧ v = (name.bind options.lookup).getD current := by
  cases name with
  | none => exact ⟨fun h => ⟨fun _ hn => (nomatch hn), (Except.ok.inj h).symm⟩,
      fun ⟨_, h⟩ => h ▸ rfl⟩
  | some n =>
    cases h : options.lookup n with
    | none =>
      simp only [setOption, findOption, h, Except.mapError]
      exact ⟨nofun, fun ⟨hk, _⟩ => by simpa [h] using hk n rfl⟩
    | some m =>
      simp only [setOption, findOption, h, Except.mapError, Except.ok.injEq, Option.some_bind,
        Option.getD_some]
      exact ⟨fun hv => ⟨fun k hk => by cases hk; simp [h], hv.symm⟩,
        fun ⟨_, hv⟩ => hv.symm⟩

theorem overrideOptions_eq_ok {o : LzmaCompressorOptions} {opt opt' : LzmaOptionsLzma} :
    overrideOptions o opt = .ok opt' ↔
      (∀ d ∈ o.dictSize, d < 32) ∧ Known kCompressionModes o.mode ∧
        Known kMatchFinders o.mf ∧ opt' = o.applyTo opt := by
  simp only [overrideOptions, bind_eq_ok, setDictSize_eq_ok, setOption_eq_ok, pure_eq_ok]
  constructor
  · rintro ⟨_, ⟨hd, rfl⟩, _, ⟨hm, rfl⟩, _, ⟨hf, rfl⟩, rfl⟩
    exact ⟨hd, hm, hf, rfl⟩
  · rintro ⟨hd, hm, hf, rfl⟩
    exact ⟨_, ⟨hd, rfl⟩, _, ⟨hm, rfl⟩, _, ⟨hf, rfl⟩, rfl⟩

end Accepts

/-- **What the constructor accepts.** It returns exactly when the binary mode, the
compression mode and the match finder given are keys of their tables, the shift for
`dict_size` is below 32 and `lzma_lzma_preset` supports the preset; the compressor then
holds the preset with the options given written over it. No other range is checked:
`level` only through the preset, and `dict_size`, `nice` and `depth` not against the
ranges `options_` lists. -/
theorem lzmaBlockCompressor_eq_ok (presetOf : UInt32 → Option LzmaOptionsLzma)
    (o : LzmaCompressorOptions) (c : LzmaBlockCompressor) :
    lzmaBlockCompressor presetOf o = .ok c ↔
      Known kBinaryModes o.binary ∧ (∀ d ∈ o.dictSize, d < 32) ∧
        Known kCompressionModes o.mode ∧ Known kMatchFinders o.mf ∧
        ∃ opt, presetOf (getPreset o.level o.extreme) = some opt ∧
          c = ⟨o.applyTo opt, o.binary.bind kBinaryModes.lookup, lzmaDescription o⟩ := by
  have hpreset : ∀ opt, loadPreset presetOf (getPreset o.level o.extreme) = .ok opt ↔
      presetOf (getPreset o.level o.extreme) = some opt := fun opt => by
    unfold loadPreset
    split <;> simp_all
  simp only [lzmaBlockCompressor, bind_eq_ok, mapError_eq_ok, getVli_eq_ok, hpreset,
    overrideOptions_eq_ok, pure_eq_ok]
  constructor
  · rintro ⟨_, ⟨hb, rfl⟩, opt, hp, _, ⟨hd, hm, hf, rfl⟩, rfl⟩
    exact ⟨hb, hd, hm, hf, opt, hp, rfl⟩
  · rintro ⟨hb, hd, hm, hf, opt, hp, rfl⟩
    exact ⟨_, ⟨hb, rfl⟩, opt, hp, _, ⟨hd, hm, hf, rfl⟩, rfl⟩

end Dwarfs.Lzma
