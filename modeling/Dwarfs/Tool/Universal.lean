/-
# The universal binary: which tool runs

`SYS_MAIN` of the universal binary (src/tools/src/universal.cpp, lines 72–125) picks the
tool from the name it was started as: the stem of `argv[0]` when the file name has no
extension, and failing that the stem without a version suffix `-<digit>...`. Otherwise a
first argument `--tool=<name>` picks it, and is removed from the arguments the tool sees;
otherwise the binary prints its help.

Paths are POSIX byte strings; `fileName` and `stemExtension` are
`std::filesystem::path::filename`, `stem` and `extension` on them.

* `universalMain_tool_name`: started as a tool's name, in any directory, the binary runs
  that tool with its arguments unchanged;
* `universalMain_versioned`: so it does under the tool's name with a version suffix whose
  first byte is a digit and which holds no `.`;
* `universalMain_dotted`: a file name with a `.` after its first byte selects no tool, so a
  version suffix such as `-0.9` is never removed;
* `universalMain_tool_arg`: otherwise `--tool=<name>` runs the tool on `argv[0]` and the
  arguments after it.
-/
import Mathlib.Data.List.Basic

namespace Dwarfs.Tool

/-- The `*_main` functions of `functions`. -/
inductive ToolMain
  | dwarfs
  | mkdwarfs
  | dwarfsck
  | dwarfsextract
  deriving DecidableEq, Repr

/-- The name a tool has in `functions`. -/
def ToolMain.name : ToolMain → List Char
  | .dwarfs => "dwarfs".toList
  | .mkdwarfs => "mkdwarfs".toList
  | .dwarfsck => "dwarfsck".toList
  | .dwarfsextract => "dwarfsextract".toList

/-- `functions`: the tools by name. -/
def functions : List (List Char × ToolMain) :=
  [ToolMain.dwarfs, .mkdwarfs, .dwarfsck, .dwarfsextract].map fun t => (t.name, t)

/-- `path.filename()`: what follows the last `/`. -/
def fileName (path : List Char) : List Char :=
  (path.reverse.takeWhile (· != '/')).reverse

/-- A list split at its last `.`: what stands before it and what follows it. -/
def splitLastDot (l : List Char) : Option (List Char × List Char) :=
  match l.reverse.dropWhile (· != '.') with
  | [] => none
  | _ :: beforeRev => some (beforeRev.reverse, (l.reverse.takeWhile (· != '.')).reverse)

/-- `stem()` and `extension()` of a file name: the extension runs from the last `.` to the
end, except that a `.` in first place and the name `..` start none. -/
def stemExtension (name : List Char) : List Char × List Char :=
  if name = "..".toList then (name, [])
  else
    match name with
    | [] => ([], [])
    | c :: rest =>
      match splitLastDot rest with
      | none => (name, [])
      | some (before, after) => (c :: before, '.' :: after)

/-- `looks_like_executable`, outside Windows: the file name has no extension. -/
def looksLikeExecutable (path : List Char) : Bool :=
  (stemExtension (fileName path)).2.isEmpty

/-- The tool the name the binary was started as selects: the stem itself, or the stem
up to its first `-` when a digit follows that `-`. -/
def byName (argv0 : List Char) : Option ToolMain :=
  if looksLikeExecutable argv0 then
    let stem := (stemExtension (fileName argv0)).1
    match functions.lookup stem with
    | some t => some t
    | none =>
      match stem.findIdx? (· == '-') with
      | some pos =>
        if pos + 1 < stem.length ∧ ((stem.get? (pos + 1)).getD ' ').isDigit then
          functions.lookup (stem.take pos)
        else none
      | none => none
  else none

/-- What the binary does: run a tool on an argument vector, or print its help. -/
inductive Dispatch
  | run (tool : ToolMain) (argv : List (List Char))
  | help
  deriving DecidableEq, Repr

/-- The argument `--tool=<name>`: the tool runs on `argv_copy`, which is `argv[0]`
followed by the arguments after `--tool=<name>`. -/
def byToolArg (argv0 : List Char) : List (List Char) → Dispatch
  | arg :: rest =>
    if "--tool=".toList.isPrefixOf arg then
      match functions.lookup (arg.drop 7) with
      | some t => .run t (argv0 :: rest)
      | none => .help
    else .help
  | [] => .help

/-- `SYS_MAIN` on `argv = argv0 :: args`. -/
def universalMain (argv0 : List Char) (args : List (List Char)) : Dispatch :=
  match byName argv0 with
  | some t => .run t (argv0 :: args)
  | none => byToolArg argv0 args

/-! ## Names and extensions -/

theorem fileName_append {dir name : List Char} (h : '/' ∉ name) :
    fileName (dir ++ '/' :: name) = name := by
  have hname : ∀ c ∈ name.reverse, (c != '/') = true := fun c hc => by
    have hc := List.mem_reverse.mp hc
    simp only [bne_iff_ne, ne_eq]
    rintro rfl
    exact h hc
  simp [fileName, List.takeWhile_append_of_pos hname]

/-- A name with no `.` after its first byte has no extension. -/
theorem stemExtension_of_not_mem {c : Char} {rest : List Char} (h : '.' ∉ rest) :
    stemExtension (c :: rest) = (c :: rest, []) := by
  have hnone : splitLastDot rest = none := by
    rw [splitLastDot, show rest.reverse.dropWhile (· != '.') = [] from
      List.dropWhile_eq_nil_iff.mpr fun x hx => by
        have hx := List.mem_reverse.mp hx
        simp only [bne_iff_ne, ne_eq]
        rintro rfl
        exact h hx]
  by_cases hdd : c :: rest = "..".toList
  · simp [stemExtension, hdd]
  · simp [stemExtension, hdd, hnone]

/-- A name with a `.` after its first byte, other than `..`, has an extension. -/
theorem stemExtension_of_mem {c : Char} {rest : List Char} (h : '.' ∈ rest)
    (hdd : c :: rest ≠ "..".toList) : (stemExtension (c :: rest)).2 ≠ [] := by
  obtain ⟨d, beforeRev, hd⟩ : ∃ d beforeRev, rest.reverse.dropWhile (· != '.') = d :: beforeRev := by
    cases hr : rest.reverse.dropWhile (· != '.') with
    | nil => exact absurd (List.dropWhile_eq_nil_iff.mp hr '.' (List.mem_reverse.mpr h)) (by decide)
    | cons d beforeRev => exact ⟨d, beforeRev, rfl⟩
  rw [stemExtension, if_neg hdd]
  simp [splitLastDot, hd]

/-! ## The dispatch -/

/-- No tool name holds a `.` or a `-`. -/
theorem name_not_mem (t : ToolMain) : '.' ∉ t.name ∧ '-' ∉ t.name := by
  cases t <;> decide

/-- No tool name holds a `/`. -/
theorem slash_not_mem_name (t : ToolMain) : '/' ∉ t.name := by
  cases t <;> decide

/-- `functions` finds a tool exactly under its name. -/
theorem lookup_functions {s : List Char} {t : ToolMain} :
    functions.lookup s = some t ↔ s = t.name := by
  constructor
  · intro h
    simp only [functions, List.map_cons, List.map_nil, List.lookup_cons, List.lookup_nil] at h
    repeat (split at h; next _ hk => cases h; exact beq_iff_eq.mp hk)
    cases h
  · rintro rfl
    cases t <;> decide

/-- A name holding a `-` is no tool's name. -/
theorem lookup_functions_of_dash {s : List Char} (h : '-' ∈ s) : functions.lookup s = none := by
  cases hs : functions.lookup s with
  | none => rfl
  | some t => exact absurd (lookup_functions.mp hs ▸ h) (name_not_mem t).2

/-- A tool's own name selects it. -/
theorem byName_tool_name {argv0 : List Char} {t : ToolMain} (h : fileName argv0 = t.name) :
    byName argv0 = some t := by
  simp only [byName, looksLikeExecutable, h]
  cases t <;> decide

/-- **Started as a tool's name.** Started as a tool's name in any directory `dir`, and
with any arguments, the binary runs that tool on the arguments it was given. -/
theorem universalMain_tool_name (dir : List Char) (args : List (List Char)) (t : ToolMain) :
    universalMain (dir ++ '/' :: t.name) args = .run t ((dir ++ '/' :: t.name) :: args) := by
  rw [universalMain, byName_tool_name (fileName_append (slash_not_mem_name t))]

/-- **A version suffix.** Started as a tool's name followed by `-`, a digit and bytes
with no `.`, the binary runs that tool on the arguments it was given. -/
theorem universalMain_versioned (argv0 : List Char) (args : List (List Char)) (t : ToolMain)
    (d : Char) (v : List Char) (hd : d.isDigit = true) (hv : '.' ∉ v)
    (h : fileName argv0 = t.name ++ '-' :: d :: v) :
    universalMain argv0 args = .run t (argv0 :: args) := by
  obtain ⟨hdot, hdash⟩ := name_not_mem t
  obtain ⟨c, nrest, hname⟩ : ∃ c nrest, t.name = c :: nrest := by
    cases t <;> exact ⟨_, _, rfl⟩
  have hd' : d ≠ '.' := by rintro rfl; exact absurd hd (by decide)
  have hstem : stemExtension (t.name ++ '-' :: d :: v) = (t.name ++ '-' :: d :: v, []) := by
    rw [hname] at hdot ⊢
    exact stemExtension_of_not_mem (by simp_all [Ne.symm hd'])
  have hfind : (t.name ++ '-' :: d :: v).findIdx? (· == '-') = some t.name.length := by
    rw [List.findIdx?_append, List.findIdx?_eq_none_iff.mpr fun x hx => by
      simp only [beq_eq_false_iff_ne, ne_eq]
      rintro rfl
      exact hdash hx]
    simp
  simp only [universalMain, byName, looksLikeExecutable, h, hstem, List.isEmpty_nil, if_true,
    lookup_functions_of_dash (List.mem_append_right _ (List.mem_cons_self _ _)), hfind]
  have hget : (t.name ++ '-' :: d :: v).get? (t.name.length + 1) = some d := by
    rw [List.get?_eq_getElem?, List.getElem?_append_right (by omega)]
    simp
  rw [if_pos ⟨by simp, by rw [hget]; exact hd⟩, List.take_left, lookup_functions.mpr rfl]

/-- `mkdwarfs-2` in `/opt`, started with no argument. -/
theorem universalMain_versioned_mkdwarfs :
    ('2'.isDigit = true ∧ '.' ∉ ([] : List Char) ∧
      fileName "/opt/mkdwarfs-2".toList = ToolMain.mkdwarfs.name ++ '-' :: '2' :: []) ∧
      universalMain "/opt/mkdwarfs-2".toList [] = .run .mkdwarfs ["/opt/mkdwarfs-2".toList] :=
  ⟨⟨by decide, by decide, by decide⟩,
    universalMain_versioned _ _ .mkdwarfs '2' [] (by decide) (by decide) (by decide)⟩

/-- **A dotted name selects no tool.** A file name with a `.` after its first byte has an
extension, unless it is `..`, and selects no tool; a version suffix such as `-0.9` is
therefore never removed, and only `--tool=` can pick the tool. -/
theorem universalMain_dotted (argv0 : List Char) (args : List (List Char))
    (h : '.' ∈ (fileName argv0).tail) : universalMain argv0 args = byToolArg argv0 args := by
  have hname : byName argv0 = none := by
    cases hn : fileName argv0 with
    | nil => rw [hn] at h; cases h
    | cons c rest =>
      rw [hn, List.tail_cons] at h
      by_cases hdd : c :: rest = "..".toList
      · simp only [byName, looksLikeExecutable, hn, hdd]
        decide
      · have hext := stemExtension_of_mem h hdd
        simp only [byName, looksLikeExecutable, hn]
        rw [if_neg (by simpa using hext)]
  rw [universalMain, hname]

/-- `mkdwarfs-0.9` started with no argument prints the help. -/
theorem universalMain_dotted_version :
    '.' ∈ (fileName "mkdwarfs-0.9".toList).tail ∧
      universalMain "mkdwarfs-0.9".toList [] = byToolArg "mkdwarfs-0.9".toList [] ∧
      byToolArg "mkdwarfs-0.9".toList [] = .help :=
  ⟨by decide, universalMain_dotted _ _ (by decide), rfl⟩

/-- **`--tool=`.** When the name selects no tool, a first argument `--tool=<name>` runs
that tool on `argv[0]` and the arguments after it. -/
theorem universalMain_tool_arg (argv0 : List Char) (rest : List (List Char)) (t : ToolMain)
    (h : byName argv0 = none) :
    universalMain argv0 (("--tool=".toList ++ t.name) :: rest) = .run t (argv0 :: rest) := by
  simp only [universalMain, h, byToolArg]
  rw [if_pos (List.isPrefixOf_iff_prefix.mpr (List.prefix_append _ _)),
    List.drop_left' (by rfl), lookup_functions.mpr rfl]

/-- The binary `dwarfs-universal` started with `--tool=mkdwarfs -i`. -/
example : universalMain "dwarfs-universal".toList (("--tool=".toList ++ ToolMain.mkdwarfs.name) ::
    ["-i".toList]) = .run .mkdwarfs ["dwarfs-universal".toList, "-i".toList] :=
  universalMain_tool_arg _ _ .mkdwarfs (by decide)

end Dwarfs.Tool
