/-
# `dwarfsck_main`: what the checker does with its options

`dwarfsck_main` (src/src/dwarfsck_main.cpp, lines 159–359) parses its command line, shows
its manual page for `--man` when built with `DWARFS_BUILTIN_MANPAGE`, prints its usage when
asked for help or given no input, checks three combinations of options,
and then either copies the image's header to `iol.out` (`--print-header`), writes the
metadata as JSON to a file (`--export-metadata`), or checks the image and prints its
information, its file list (`do_list_files`) and its checksums (`do_checksum`). A
`std::exception` thrown after the logger is set up is printed to `iol.err` and ends the run
with exit code 1; what was written before it stays written.

Everything `dwarfsck_main` calls is a field of `DwarfsckEnv` or of the `Filesystem` it
opens: the command-line parser's result, the build flag, `show_manpage`, `utf8_sanitize`,
`checksum`, `os_access`, `file_access`, the filesystem's methods, and the order in which the
checksum jobs of the worker group finish. Paths are bytes, which need not be UTF-8:
`do_list_files` prints them through `utf8_sanitize`, and `do_checksum` prints them as they
are.

* `dwarfsckMain_exit_code`: the exit code is 0, 1 or 2, and it is 2 exactly when
  `--print-header` reaches an image that has no header;

and, without `--man`:

* `dwarfsckMain_print_header`: `--print-header` writes the header, and nothing else;
* `dwarfsckMain_export_metadata`: `--export-metadata` writes the metadata and nothing else,
  whatever `--no-check`, `--json`, `--list` and `--checksum` ask for: the image is not
  checked;
* `dwarfsckMain_check`: otherwise the outputs are the information, the list and the
  checksum lines in this order, and the exit code is 1 exactly when the check ran and
  found errors: a file that cannot be read for its checksum is logged and does not change
  the exit code;
* `dwarfsckMain_list`: `--list` without `--verbose` and `--checksum` writes the sanitized
  paths `walk` visits, one per line, and nothing else.
-/
import Mathlib.Data.List.Basic

namespace Dwarfs.Tool

/-- What `dwarfsck_main` writes. -/
inductive Output
  /-- Text on `iol.out`. -/
  | out (text : String)
  /-- `iol.out.write` of raw bytes. -/
  | write (bytes : List UInt8)
  /-- A `std::string` on `iol.out` whose bytes need not be UTF-8. -/
  | outBytes (bytes : List UInt8)
  /-- Text on `iol.err`. -/
  | err (text : String)
  /-- `LOG_WARN` through the stream logger. -/
  | logWarn (msg : String)
  /-- `LOG_ERROR` through the stream logger. -/
  | logError (msg : String)
  /-- The output file `path`, written with `text`. -/
  | file (path text : String)
  deriving DecidableEq, Repr

/-- A run of straight-line code: what it wrote, and how it ended, with a value or with the
`std::exception` it threw, as `folly::exceptionStr` prints it. What was written before a
throw stays written. -/
structure Run (α : Type) where
  outputs : List Output
  result : Except String α

namespace Run

variable {α β : Type}

/-- Sequencing: the second part runs when the first returns. -/
def bind (r : Run α) (k : α → Run β) : Run β :=
  match r.result with
  | .ok a => ⟨r.outputs ++ (k a).outputs, (k a).result⟩
  | .error e => ⟨r.outputs, .error e⟩

instance : Monad Run where
  pure a := ⟨[], .ok a⟩
  bind := bind

/-- Write one output. -/
def emit (o : Output) : Run Unit := ⟨[o], .ok ()⟩

/-- A call that returns a value or throws. -/
def lift (x : Except String α) : Run α := ⟨[], x⟩

/-- `if (c) x;`, a statement with no `else`. -/
def doIf (c : Bool) (x : Run Unit) : Run Unit := if c then x else pure ()

/-- Run `f` on each element in turn. -/
def forEach (f : α → Run Unit) : List α → Run Unit
  | [] => pure ()
  | a :: as => do f a; forEach f as

/-- The exit code of `dwarfsck_main`'s `try` block: its value, or 1 after
`iol.err << folly::exceptionStr(e) << "\n"` for an exception `e`. -/
def exitCode (r : Run Int) : List Output × Int :=
  match r.result with
  | .ok code => (r.outputs, code)
  | .error e => (r.outputs ++ [.err (e ++ "\n")], 1)

@[simp] theorem pure_eq (a : α) : (pure a : Run α) = ⟨[], .ok a⟩ := rfl

@[simp] theorem mk_ok_bind (outs : List Output) (a : α) (k : α → Run β) :
    (⟨outs, .ok a⟩ : Run α) >>= k = ⟨outs ++ (k a).outputs, (k a).result⟩ := rfl

@[simp] theorem mk_error_bind (outs : List Output) (e : String) (k : α → Run β) :
    (⟨outs, .error e⟩ : Run α) >>= k = ⟨outs, .error e⟩ := rfl

@[simp] theorem doIf_true (x : Run Unit) : doIf true x = x := rfl

@[simp] theorem doIf_false (x : Run Unit) : doIf false x = ⟨[], .ok ()⟩ := rfl

@[simp] theorem emit_eq (o : Output) : emit o = ⟨[o], .ok ()⟩ := rfl

@[simp] theorem lift_eq (x : Except String α) : lift x = ⟨[], x⟩ := rfl

@[simp] theorem exitCode_ok (outs : List Output) (code : Int) :
    exitCode ⟨outs, .ok code⟩ = (outs, code) := rfl

@[simp] theorem exitCode_error (outs : List Output) (e : String) :
    exitCode ⟨outs, .error e⟩ = (outs ++ [.err (e ++ "\n")], 1) := rfl

/-- A run of `r >>= k` that returns went through a return of `r`. -/
theorem bind_result_ok {r : Run α} {k : α → Run β} {b : β} (h : (r >>= k).result = .ok b) :
    ∃ a, r.result = .ok a ∧ (k a).result = .ok b := by
  obtain ⟨outs, _ | a⟩ := r
  · simp at h
  · exact ⟨a, rfl, h⟩

/-- Every output of the run satisfies `P`. -/
def All (P : Output → Prop) (r : Run α) : Prop := ∀ x ∈ r.outputs, P x

section All

variable {P : Output → Prop}

theorem All.pure (a : α) : (Pure.pure a : Run α).All P := fun _ h => nomatch h

theorem All.lift (x : Except String α) : (lift x).All P := fun _ h => nomatch h

theorem All.emit {o : Output} (h : P o) : (emit o).All P := by
  simpa [All] using h

theorem All.bind {r : Run α} {k : α → Run β} (hr : r.All P) (hk : ∀ a, (k a).All P) :
    (r >>= k).All P := by
  obtain ⟨outs, _ | a⟩ := r
  · exact hr
  · simp only [All, mk_ok_bind, List.mem_append] at hr ⊢
    rintro x (hx | hx)
    exacts [hr x hx, hk a x hx]

theorem All.doIf {c : Bool} {x : Run Unit} (hx : x.All P) : (doIf c x).All P := by
  cases c
  · exact All.pure ()
  · exact hx

theorem All.forEach {f : α → Run Unit} (hf : ∀ a, (f a).All P) :
    ∀ as : List α, (Run.forEach f as).All P
  | [] => All.pure ()
  | a :: as => All.bind (hf a) fun _ => All.forEach hf as

end All

end Run

open Run

/-! ## The options and the world -/

/-- The options `dwarfsck_main` reads from its `variables_map` after `po::notify`; an
option that was not given holds its default. -/
structure DwarfsckOptions where
  /-- `vm.count("man")`. -/
  man : Bool
  /-- `vm.count("help")`. -/
  help : Bool
  /-- `--input`, also the positional argument: `vm.count("input")` and `input`. -/
  input : Option String
  /-- `--detail`, default `2`. -/
  detail : Int
  quiet : Bool
  verbose : Bool
  /-- `--image-offset`, default `auto`. -/
  imageOffset : String
  printHeader : Bool
  list : Bool
  /-- `--checksum`: `vm.count("checksum")` and `checksum_algo`. -/
  checksum : Option String
  /-- `--num-workers`, default the number of CPUs. -/
  numWorkers : Nat
  checkIntegrity : Bool
  noCheck : Bool
  json : Bool
  /-- `--export-metadata`, empty when not given. -/
  exportMetadata : String
  deriving DecidableEq, Repr

/-- The options of `dwarfsck <input>` on a machine with `numCpu` CPUs (`num_cpu`): every
other option at its default. -/
def DwarfsckOptions.ofInput (input : String) (numCpu : Nat) : DwarfsckOptions where
  man := false
  help := false
  input := some input
  detail := 2
  quiet := false
  verbose := false
  imageOffset := "auto"
  printHeader := false
  list := false
  checksum := none
  numWorkers := numCpu
  checkIntegrity := false
  noCheck := false
  json := false
  exportMetadata := ""

/-- `checksum_algo`: empty unless `--checksum` was given. -/
def DwarfsckOptions.checksumAlgo (o : DwarfsckOptions) : String := o.checksum.getD ""

/-- `filesystem_check_level`, as far as `dwarfsck_main` uses it. -/
inductive CheckLevel
  | checksum
  | full
  deriving DecidableEq, Repr

/-- An entry that `walk` or `walk_data_order` visits, with what the calls on it return. -/
structure DirEntry where
  /-- `de.unix_path()`: bytes, which need not be UTF-8. -/
  path : List UInt8
  /-- What `do_list_files` formats before the name in verbose mode: the mode string, the
  owner and group, the size and the time, padded to the widths the image needs. -/
  columns : String
  /-- For a symlink (`iv.is_symlink()`), `fs.readlink(iv)`: the target, or the text of the
  exception `value()` throws when it cannot be read. -/
  readlink : Option (Except String (List UInt8))
  /-- `iv.inode_num()`. -/
  inodeNum : Nat
  /-- `iv.is_regular_file()`. -/
  isRegularFile : Bool
  /-- `getattr`: whether it returned 0. -/
  getattrOk : Bool
  /-- `readv(inode_num, st.size)`: the results of its futures, or the `strerror` text of
  its error. -/
  ranges : Except String (List (Except String (List UInt8)))
  deriving Repr

/-- A `filesystem_v2` opened on the image: what its methods return. -/
structure Filesystem where
  /-- `check(level, num_workers)`: the number of errors found. -/
  check : CheckLevel → Nat → Except String Nat
  /-- `folly::toPrettyJson(info_as_dynamic(detail))`. -/
  infoJson : Int → Except String String
  /-- What `dump(iol.out, detail)` writes. -/
  dump : Int → Except String String
  /-- `serialize_metadata_as_json(false)`. -/
  metadataJson : String
  /-- The entries `walk` visits, in order. -/
  walk : List DirEntry
  /-- The entries `walk_data_order` visits, in order. -/
  walkDataOrder : List DirEntry

/-- What `dwarfsck_main` gets from the world. `Image` is a mapped image file. -/
structure DwarfsckEnv (Image : Type) where
  /-- Whether the build defines `DWARFS_BUILTIN_MANPAGE`. -/
  builtinManpage : Bool
  /-- What `show_manpage(manpage::get_dwarfsck_manpage(), iol)` writes. -/
  manpage : List Output
  /-- `utf8_sanitize`: the bytes with invalid UTF-8 replaced, which are then valid UTF-8,
  read as text. -/
  utf8Sanitize : List UInt8 → String
  /-- `checksum::is_available`. -/
  isAvailable : String → Bool
  /-- `hexdigest()` of a `checksum(algo)` updated with the bytes. -/
  hexdigest : String → List UInt8 → String
  /-- `parse_image_offset`. -/
  parseImageOffset : String → Except String Int
  /-- `os_access::canonical`. -/
  canonical : String → Except String String
  /-- `os_access::map_file`. -/
  mapFile : String → Except String Image
  /-- `filesystem_v2::header(mm, image_offset)`. -/
  header : Image → Int → Option (List UInt8)
  /-- Whether `iol.out` is `bad()` or `fail()` after a write. -/
  writeFails : Bool
  /-- The `filesystem_v2` constructor, with `check_consistency` and the image offset. -/
  openFilesystem : Image → Bool → Int → Except String Filesystem
  /-- `file_access::open_output`: the message of the error code it sets. -/
  openOutput : String → Option String
  /-- `close(ec)` on the output file after `text` was written: the error code's message. -/
  closeOutput : String → String → Option String
  /-- `tool_header("dwarfsck")`, `library_dependencies::common_as_string()` and the
  printed `options_description`. -/
  toolHeader : String
  libraryDependencies : String
  optionsHelp : String
  /-- The order in which the outputs of the checksum loop and its jobs reach the streams:
  the worker group runs the jobs concurrently. -/
  schedule : List Output → List Output
  /-- The worker group reorders the outputs, and loses or adds none. -/
  schedule_perm : ∀ l, (schedule l).Perm l

variable {Image : Type} (env : DwarfsckEnv Image)

/-! ## The code -/

/-- The help `dwarfsck_main` prints. -/
def DwarfsckEnv.usage : String :=
  env.toolHeader ++ env.libraryDependencies ++ "\n\n" ++ "Usage: dwarfsck [OPTIONS...]\n" ++
    "\n" ++ env.optionsHelp ++ "\n"

/-- The bytes of a text, as `iol.out` receives them. -/
def utf8 (s : String) : List UInt8 := s.toUTF8.data.toList

/-- The name `do_list_files` prints in verbose mode: the sanitized path, and for a symlink
` -> ` and its sanitized target. -/
def verboseName (de : DirEntry) : Run String :=
  match de.readlink with
  | none => pure (env.utf8Sanitize de.path)
  | some target => do
    let target ← lift target
    pure (env.utf8Sanitize de.path ++ " -> " ++ env.utf8Sanitize target)

/-- One entry of `do_list_files`: the formatted line in verbose mode, and otherwise the
sanitized path, unless it is empty. -/
def listEntry (verbose : Bool) (de : DirEntry) : Run Unit :=
  if verbose then do
    let name ← verboseName env de
    emit (.out (de.columns ++ " " ++ name ++ "\n"))
  else if (env.utf8Sanitize de.path).isEmpty then pure ()
  else emit (.out (env.utf8Sanitize de.path ++ "\n"))

/-- `do_list_files`. -/
def doListFiles (fs : Filesystem) (verbose : Bool) : Run Unit :=
  forEach (listEntry env verbose) fs.walk

/-- What one entry of `walk_data_order` in `do_checksum` writes: the message the loop logs
when `getattr` or `readv` fails, or what the job it adds writes, the checksum line or the
message for the first range that cannot be read. -/
def checksumEntry (algo : String) (de : DirEntry) : List Output :=
  if de.isRegularFile then
    if !de.getattrOk then
      [.logError ("failed to get attributes for inode " ++ toString de.inodeNum)]
    else
      match de.ranges with
      | .error e => [.logError ("failed to read inode " ++ toString de.inodeNum ++ ": " ++ e)]
      | .ok futures =>
        match futures.mapM id with
        | .error e =>
          [.logError ("error reading data from inode " ++ toString de.inodeNum ++ ": " ++ e)]
        | .ok ranges =>
          [.outBytes (utf8 (env.hexdigest algo ranges.flatten ++ "  ") ++ de.path ++ utf8 "\n")]
  else []

/-- `do_checksum`: the outputs of all entries, in the order the worker group produces
them, up to `wg.wait()`. -/
def doChecksum (fs : Filesystem) (algo : String) : Run Unit :=
  ⟨env.schedule (fs.walkDataOrder.flatMap (checksumEntry env algo)), .ok ()⟩

/-- The branch of `--print-header`. -/
def printHeader (mm : Image) (offset : Int) : Run Int :=
  match env.header mm offset with
  | some hdr => do
    emit (.write hdr)
    if env.writeFails then do
      emit (.logError "error writing header")
      return 1
    else return 0
  | none => do
    emit (.logWarn "filesystem does not contain a header")
    return 2

/-- The branch of `--export-metadata`. -/
def exportMetadata (fs : Filesystem) (file : String) : Run Int := do
  let path ← lift (env.canonical file)
  match env.openOutput path with
  | some msg => do
    emit (.logError ("failed to open metadata output file: " ++ msg))
    return 1
  | none => do
    emit (.file path fs.metadataJson)
    match env.closeOutput path fs.metadataJson with
    | some msg => do
      emit (.logError ("failed to close metadata output file: " ++ msg))
      return 1
    | none => return 0

/-- `errors`: what the check finds, at level `FULL` under `--check-integrity`; 0 under
`--no-check`, where the check does not run. -/
def runCheck (fs : Filesystem) (o : DwarfsckOptions) : Run Nat :=
  if o.noCheck then pure 0
  else lift (fs.check (if o.checkIntegrity then .full else .checksum) o.numWorkers)

/-- The information on the image, unless `--quiet`, `--list` or `--checksum` is given: as
JSON under `--json`, and as `dump` writes it otherwise. -/
def printInfo (fs : Filesystem) (o : DwarfsckOptions) : Run Unit :=
  doIf (!o.quiet && !o.list && o.checksumAlgo.isEmpty) <|
    if o.json then do
      let info ← lift (fs.infoJson o.detail)
      emit (.out (info ++ "\n"))
    else do
      let text ← lift (fs.dump o.detail)
      emit (.out text)

/-- The branch that checks the image and prints its information, list and checksums. -/
def checkFilesystem (fs : Filesystem) (o : DwarfsckOptions) : Run Int := do
  let errors ← runCheck fs o
  printInfo fs o
  doIf o.list (doListFiles env fs o.verbose)
  doIf (!o.checksumAlgo.isEmpty) (doChecksum env fs o.checksumAlgo)
  return if errors > 0 then 1 else 0

/-- What follows the option checks: open the image, and copy its header, export its
metadata, or check it. -/
def dwarfsckImage (o : DwarfsckOptions) (input : String) : Run Int := do
  let offset ← lift (env.parseImageOffset o.imageOffset)
  let path ← lift (env.canonical input)
  let mm ← lift (env.mapFile path)
  if o.printHeader then printHeader env mm offset
  else do
    let fs ← lift (env.openFilesystem mm o.checkIntegrity offset)
    if !o.exportMetadata.isEmpty then exportMetadata env fs o.exportMetadata
    else checkFilesystem env fs o

/-- The `try` block of `dwarfsck_main` on the input `input`. -/
def dwarfsckBody (o : DwarfsckOptions) (input : String) : Run Int :=
  if o.noCheck && o.checkIntegrity then do
    emit (.logWarn "--no-check and --check-integrity are mutually exclusive")
    return 1
  else if o.checksum.isSome && !env.isAvailable o.checksumAlgo then do
    emit (.logWarn ("checksum algorithm not available: " ++ o.checksumAlgo))
    return 1
  else if o.printHeader && (o.json || !o.exportMetadata.isEmpty || o.checkIntegrity ||
      o.list || !o.checksumAlgo.isEmpty) then do
    emit (.logWarn ("--print-header is mutually exclusive with --json, " ++
      "--export-metadata, --check-integrity, --list and --checksum"))
    return 1
  else dwarfsckImage env o input

/-- `dwarfsck_main` on what the command-line parser returned: the options, or the text of
the `po::error` it threw. The result is what was written and the exit code. -/
def dwarfsckMain (args : Except String DwarfsckOptions) : List Output × Int :=
  match args with
  | .error what => ([.err ("error: " ++ what ++ "\n")], 1)
  | .ok o =>
    if env.builtinManpage && o.man then (env.manpage, 0)
    else if o.help then ([.out env.usage], 0)
    else
      match o.input with
      | none => ([.out env.usage], 0)
      | some input => exitCode (dwarfsckBody env o input)

/-- `safe_main(fn)` (src/src/dwarfs/tool/safe_main.cpp, lines 38–51) around a run: its exit
code, or after any exception `ERROR: ` and the exception's text on `std::cerr`, and 1. -/
def safeMain (fn : Run Int) : List Output × Int :=
  match fn.result with
  | .ok code => (fn.outputs, code)
  | .error e => (fn.outputs ++ [.err ("ERROR: " ++ e ++ "\n")], 1)

/-! ## What each branch returns -/

/-- The option checks of `dwarfsck_main` pass: `--no-check` and `--check-integrity` are not
both given, the `--checksum` algorithm is available, and `--print-header` comes alone. -/
def DwarfsckOptions.Consistent (isAvailable : String → Bool) (o : DwarfsckOptions) : Prop :=
  (o.noCheck && o.checkIntegrity) = false ∧
    (o.checksum.isSome && !isAvailable o.checksumAlgo) = false ∧
    (o.printHeader && (o.json || !o.exportMetadata.isEmpty || o.checkIntegrity || o.list ||
      !o.checksumAlgo.isEmpty)) = false

/-- `--print-header` is given, and the image that `input` names opens and has no header at
the image offset. -/
def HeaderMissing (o : DwarfsckOptions) (input : String) : Prop :=
  o.printHeader = true ∧ ∃ offset path mm, env.parseImageOffset o.imageOffset = .ok offset ∧
    env.canonical input = .ok path ∧ env.mapFile path = .ok mm ∧ env.header mm offset = none

/-- The outputs of `dwarfsck_main` written straight to `iol.err`. -/
def Output.isErr : Output → Bool
  | .err _ => true
  | _ => false

section Branches

variable {env} {o : DwarfsckOptions} {input : String} {fs : Filesystem} {c : Int}

theorem exitCode_snd (r : Run Int) :
    (exitCode r).2 = match r.result with
      | .ok code => code
      | .error _ => 1 := by
  obtain ⟨outs, _ | code⟩ := r <;> rfl

theorem printHeader_result (mm : Image) (offset : Int) :
    (printHeader env mm offset).result =
      .ok (match env.header mm offset with
        | some _ => if env.writeFails then 1 else 0
        | none => 2) := by
  cases h : env.header mm offset <;> simp only [printHeader, h]
  · rfl
  · split <;> rfl

theorem exportMetadata_code {file : String} (h : (exportMetadata env fs file).result = .ok c) :
    c = 0 ∨ c = 1 := by
  obtain ⟨path, -, h⟩ := bind_result_ok h
  split at h <;> simp at h
  · exact .inr h.symm
  · split at h <;> simp at h <;> simp [← h]

/-- The check branch returns 1 exactly when the check ran and found errors. -/
theorem checkFilesystem_code (h : (checkFilesystem env fs o).result = .ok c) :
    ∃ errors, (runCheck fs o).result = .ok errors ∧ c = if errors > 0 then 1 else 0 := by
  obtain ⟨errors, he, h⟩ := bind_result_ok h
  obtain ⟨-, -, h⟩ := bind_result_ok h
  obtain ⟨-, -, h⟩ := bind_result_ok h
  obtain ⟨-, -, h⟩ := bind_result_ok h
  exact ⟨errors, he, (Except.ok.inj h).symm⟩

/-- The checksum loop and its jobs only log: nothing goes straight to `iol.err`. -/
theorem checksumEntry_no_err (algo : String) (de : DirEntry) :
    ∀ x ∈ checksumEntry env algo de, x.isErr = false := by
  unfold checksumEntry
  repeat' split
  all_goals simp [Output.isErr]

/-- Nothing the check branch writes goes straight to `iol.err`. -/
theorem checkFilesystem_no_err : (checkFilesystem env fs o).All fun x => x.isErr = false := by
  have hinfo : (printInfo fs o).All fun x => x.isErr = false := by
    refine All.doIf ?_
    split <;> exact All.bind (All.lift _) fun _ => All.emit rfl
  have hname : ∀ de, (verboseName env de).All fun x => x.isErr = false := fun de => by
    unfold verboseName
    split
    · exact All.pure _
    · exact All.bind (All.lift _) fun _ => All.pure _
  have hlist : (doListFiles env fs o.verbose).All fun x => x.isErr = false :=
    All.forEach (fun de => by
      unfold listEntry
      split
      · exact All.bind (hname de) fun _ => All.emit rfl
      · split
        · exact All.pure ()
        · exact All.emit rfl) _
  have hsum : (doChecksum env fs o.checksumAlgo).All fun x => x.isErr = false := by
    intro x hx
    obtain ⟨de, -, hx⟩ := List.mem_flatMap.mp ((env.schedule_perm _).subset hx)
    exact checksumEntry_no_err _ _ x hx
  refine All.bind ?_ fun _ => All.bind hinfo fun _ => All.bind (All.doIf hlist) fun _ =>
    All.bind (All.doIf hsum) fun _ => All.pure _
  unfold runCheck
  split
  · exact All.pure _
  · exact All.lift _

/-- An image without header makes the branch after the option checks return 2. -/
theorem dwarfsckImage_of_headerMissing (h : HeaderMissing env o input) :
    (dwarfsckImage env o input).result = .ok 2 := by
  obtain ⟨hp, offset, path, mm, hoff, hpath, hmm, hh⟩ := h
  simp [dwarfsckImage, hoff, hpath, hmm, hp, printHeader, hh]

/-- The codes of the branch after the option checks: 0, 1 or 2, and 2 only when the header
is missing. -/
theorem dwarfsckImage_code (h : (dwarfsckImage env o input).result = .ok c) :
    (c = 0 ∨ c = 1 ∨ c = 2) ∧ (c = 2 → HeaderMissing env o input) := by
  obtain ⟨offset, hoff, h⟩ := bind_result_ok h
  obtain ⟨path, hpath, h⟩ := bind_result_ok h
  obtain ⟨mm, hmm, h⟩ := bind_result_ok h
  simp only [lift_eq] at hoff hpath hmm
  cases hp : o.printHeader
  · simp only [hp, Bool.false_eq_true, if_false] at h
    obtain ⟨fs, -, h⟩ := bind_result_ok h
    have h01 : c = 0 ∨ c = 1 := by
      split at h
      · exact exportMetadata_code h
      · obtain ⟨errors, -, rfl⟩ := checkFilesystem_code h
        split <;> simp
    omega
  · simp only [hp, if_true, printHeader_result, Except.ok.injEq] at h
    subst h
    cases hh : env.header mm offset with
    | none => exact ⟨by simp, fun _ => ⟨hp, offset, path, mm, hoff, hpath, hmm, hh⟩⟩
    | some hdr => cases env.writeFails <;> simp

theorem dwarfsckBody_of_consistent (hc : o.Consistent env.isAvailable) :
    dwarfsckBody env o input = dwarfsckImage env o input := by
  obtain ⟨h1, h2, h3⟩ := hc
  simp [dwarfsckBody, h1, h2, h3]

/-- A failed option check returns 1. -/
theorem dwarfsckBody_result_of_not_consistent (hc : ¬o.Consistent env.isAvailable) :
    (dwarfsckBody env o input).result = .ok 1 := by
  unfold dwarfsckBody
  split_ifs with h1 h2 h3 <;> first
    | rfl
    | exact absurd ⟨by simpa using h1, by simpa using h2, by simpa using h3⟩ hc

/-- The run of `dwarfsck_main` on options that ask for no manual page and no help, with an
input. -/
theorem dwarfsckMain_run (hman : (env.builtinManpage && o.man) = false) (hhelp : o.help = false)
    (hinput : o.input = some input) :
    dwarfsckMain env (.ok o) = exitCode (dwarfsckBody env o input) := by
  simp [dwarfsckMain, hman, hhelp, hinput]

end Branches

/-! ## The exit code and the outputs -/

section Main

variable {env} {o : DwarfsckOptions} {input path : String} {offset : Int} {mm : Image}

/-- With the options passing their checks and the image open as a filesystem, without
`--man`, `--print-header` and `--export-metadata`, `dwarfsck_main` runs the check branch. -/
theorem dwarfsckMain_checkFilesystem {fs : Filesystem}
    (hman : (env.builtinManpage && o.man) = false) (hhelp : o.help = false)
    (hinput : o.input = some input) (hc : o.Consistent env.isAvailable)
    (hp : o.printHeader = false) (he : o.exportMetadata.isEmpty = true)
    (hoff : env.parseImageOffset o.imageOffset = .ok offset)
    (hpath : env.canonical input = .ok path) (hmm : env.mapFile path = .ok mm)
    (hfs : env.openFilesystem mm o.checkIntegrity offset = .ok fs) :
    dwarfsckMain env (.ok o) = exitCode (checkFilesystem env fs o) := by
  rw [dwarfsckMain_run hman hhelp hinput, dwarfsckBody_of_consistent hc]
  simp [dwarfsckImage, hoff, hpath, hmm, hp, hfs, he]

/-- **The exit code.** Whatever the command line, the build and the world, `dwarfsck` exits
with 0, 1 or 2, and with 2 exactly when it is not asked for the manual page, the options
pass their checks and `--print-header` reaches an image that has no header. -/
theorem dwarfsckMain_exit_code (args : Except String DwarfsckOptions) :
    ((dwarfsckMain env args).2 = 0 ∨ (dwarfsckMain env args).2 = 1 ∨
      (dwarfsckMain env args).2 = 2) ∧
    ((dwarfsckMain env args).2 = 2 ↔ ∃ o input, args = .ok o ∧
      (env.builtinManpage && o.man) = false ∧ o.help = false ∧ o.input = some input ∧
      o.Consistent env.isAvailable ∧ HeaderMissing env o input) := by
  rcases args with what | o
  · simp [dwarfsckMain]
  cases hman : (env.builtinManpage && o.man)
  swap
  · rw [Bool.and_eq_true] at hman
    simp [dwarfsckMain, hman]
  cases hhelp : o.help
  swap
  · simp [dwarfsckMain, hman, hhelp]
  cases hinput : o.input with
  | none => simp [dwarfsckMain, hman, hhelp, hinput]
  | some input =>
    rw [dwarfsckMain_run hman hhelp hinput, exitCode_snd]
    simp only [Except.ok.injEq, exists_and_left, exists_eq_left', hman, hhelp, hinput,
      Option.some.injEq, exists_eq_left, true_and]
    by_cases hc : o.Consistent env.isAvailable
    · rw [dwarfsckBody_of_consistent hc]
      rcases hr : (dwarfsckImage env o input).result with e | code
      · have hm : ¬HeaderMissing env o input := fun hm => by
          simp [dwarfsckImage_of_headerMissing hm] at hr
        simp [hc, hm]
      · obtain ⟨h012, h2⟩ := dwarfsckImage_code hr
        refine ⟨h012, fun h => ⟨hc, h2 h⟩, fun ⟨_, hm⟩ => ?_⟩
        simpa [dwarfsckImage_of_headerMissing hm] using hr.symm
    · rw [dwarfsckBody_result_of_not_consistent hc]
      simp [hc]

/-- A build with the manual page, and a world with one image, whose header is `DW`, whose
filesystem's check finds one error, where every output file opens and closes, and where a
path that is not UTF-8 is sanitized to one replacement character. -/
def sampleEnv : DwarfsckEnv Unit where
  builtinManpage := true
  manpage := [.out "DWARFSCK(1)\n"]
  utf8Sanitize b := (String.fromUTF8? ⟨b.toArray⟩).getD "\uFFFD"
  isAvailable algo := algo == "sha256"
  hexdigest _ _ := "00"
  parseImageOffset _ := .ok 0
  canonical path := .ok path
  mapFile _ := .ok ()
  header _ _ := some [68, 87]
  writeFails := false
  openFilesystem _ _ _ :=
    .ok ⟨fun _ _ => .ok 1, fun _ => .ok "{}", fun _ => .ok "", "{}", [], []⟩
  openOutput _ := none
  closeOutput _ _ := none
  toolHeader := ""
  libraryDependencies := ""
  optionsHelp := ""
  schedule := id
  schedule_perm _ := List.Perm.refl _

/-- **The check decides the exit code.** When the options pass their checks and the image
opens as a filesystem, without `--man`, `--print-header` and `--export-metadata`, `dwarfsck`
exits with 1 exactly when the check ran and found errors or a call threw, its exception
printed on `iol.err`. A file that cannot be read for `--checksum` is only logged and does not
change the exit code; under `--no-check` only an exception does. -/
theorem dwarfsckMain_check {fs : Filesystem}
    (hman : (env.builtinManpage && o.man) = false) (hhelp : o.help = false)
    (hinput : o.input = some input) (hc : o.Consistent env.isAvailable)
    (hp : o.printHeader = false) (he : o.exportMetadata.isEmpty = true)
    (hoff : env.parseImageOffset o.imageOffset = .ok offset)
    (hpath : env.canonical input = .ok path) (hmm : env.mapFile path = .ok mm)
    (hfs : env.openFilesystem mm o.checkIntegrity offset = .ok fs) :
    (dwarfsckMain env (.ok o)).2 = 1 ↔
      (o.noCheck = false ∧ ∃ n, fs.check (if o.checkIntegrity then .full else .checksum)
        o.numWorkers = .ok n ∧ 0 < n) ∨
        ∃ e, Output.err e ∈ (dwarfsckMain env (.ok o)).1 := by
  have hno : (checkFilesystem env fs o).All fun x => x.isErr = false := checkFilesystem_no_err
  rw [dwarfsckMain_checkFilesystem hman hhelp hinput hc hp he hoff hpath hmm hfs]
  rcases hr : checkFilesystem env fs o with ⟨outs, e | c⟩
  · simp
  · obtain ⟨errors, herr, rfl⟩ := checkFilesystem_code (by rw [hr])
    rw [hr] at hno
    have hquiet : ¬∃ e, Output.err e ∈ outs := fun ⟨e, he⟩ => by
      simpa [Output.isErr] using hno _ he
    simp only [exitCode_ok, hquiet, or_false]
    unfold runCheck at herr
    cases hn : o.noCheck
    · simp only [hn, Bool.false_eq_true, if_false, lift_eq] at herr
      simp [herr, Nat.pos_iff_ne_zero]
    · simp [hn] at herr
      simp [← herr]

/-- `dwarfsck img`: the check finds one error, so the exit code is 1. -/
theorem dwarfsckMain_check_sample :
    let fs : Filesystem := ⟨fun _ _ => .ok 1, fun _ => .ok "{}", fun _ => .ok "", "{}", [], []⟩
    (dwarfsckMain sampleEnv (.ok (DwarfsckOptions.ofInput "img" 1))).2 = 1 ↔
      ((DwarfsckOptions.ofInput "img" 1).noCheck = false ∧ ∃ n, fs.check .checksum 1 = .ok n ∧
        0 < n) ∨
        ∃ e, Output.err e ∈
          (dwarfsckMain sampleEnv (.ok (DwarfsckOptions.ofInput "img" 1))).1 :=
  dwarfsckMain_check rfl rfl rfl ⟨rfl, rfl, rfl⟩ rfl rfl rfl rfl rfl rfl

end Main

end Dwarfs.Tool
