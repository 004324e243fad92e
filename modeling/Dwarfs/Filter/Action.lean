/-
# `filter`: the first matching rule decides

`rule_based_entry_filter_::filter` (src/src/writer/rule_based_entry_filter.cpp,
lines 262–290) strips the input root from an entry's path and returns the action of the
first rule whose regex fully matches, for a floating rule, the full path, and for an
anchored rule the path below the root; an entry no rule matches is kept.
`set_root_path` (lines 188–205) stores the root without one trailing `/`, so the root
`/` is stored as the empty string.

`filter` reads three things of a compiled rule: its type, whether it floats, and
`std::regex_match` with its regex. `CompiledRule` gives them for any representation of a
compiled `filter_rule`. `FilterRule`, whose regexes are the fragment of `Dwarfs.Regex`, is
one instance. The theorems on `add_rule` and `add_rules` hold for every instance, so they
also cover the rules whose regexes lie outside that fragment.

Floating rules therefore see the components of the root too
(`filter_root_counterexample`). They decide only on the part below the root when their
pattern has no `/` and no `**` and the root no line terminator: the regex `.*/P` then
matches exactly the paths whose last component `P` matches, and that component lies
below the root (`filter_setRootPath_append`).
-/
import Dwarfs.Filter.Glob

namespace Dwarfs.Filter

open Regex

/-- `filter_action`. -/
inductive FilterAction
  | keep
  | remove
  deriving DecidableEq, Repr

/-- What `filter` reads of a compiled `filter_rule`: its type, whether it is floating, and
`std::regex_match` of a string with its regex. -/
class CompiledRule (Rule : Type) where
  type : Rule → RuleType
  floating : Rule → Bool
  fullMatch : Rule → List Char → Bool

/-- The rules of the model: `std::regex_match` is `regexMatch` on the compiled terms. -/
instance : CompiledRule FilterRule where
  type r := r.type
  floating r := r.floating
  fullMatch r s := regexMatch r.re s

/-- `set_root_path` on a POSIX path, already a UTF-8 string with `/` separators: one
trailing `/` is dropped. -/
def setRootPath (path : List Char) : List Char :=
  if path.getLast? = some '/' then path.dropLast else path

/-- The path below the root: the root's length is erased from a path at least as long. -/
def relPath (rootPath path : List Char) : List Char :=
  if rootPath.length ≤ path.length then path.drop rootPath.length else path

section Generic

variable {Rule : Type} [CompiledRule Rule]

/-- An include rule keeps what it matches, an exclude rule removes it. -/
def ruleAction (r : Rule) : FilterAction :=
  match CompiledRule.type r with
  | .include => .keep
  | .exclude => .remove

/-- The rule's regex fully matches what it is matched against: the path when the rule
floats, and the path below the root otherwise. -/
def ruleMatches (r : Rule) (path relpath : List Char) : Bool :=
  CompiledRule.fullMatch r (if CompiledRule.floating r then path else relpath)

/-- The loop over the rules: the action of the first whose regex fully matches. -/
def firstAction (path relpath : List Char) : List Rule → FilterAction
  | [] => .keep
  | r :: rs => if ruleMatches r path relpath then ruleAction r else firstAction path relpath rs

/-- `rule_based_entry_filter_::filter` on the entry whose `unix_dpath()` is `path`. -/
def filter (rootPath : List Char) (rules : List Rule) (path : List Char) : FilterAction :=
  firstAction path (relPath rootPath path) rules

end Generic

/-- `debug_filter_mode`. -/
inductive DebugFilterMode
  | included
  | excluded
  | includedFiles
  | excludedFiles
  | files
  | all
  deriving DecidableEq, Repr

/-- `debug_filter_output` (src/src/writer/filter_debug.cpp, lines 31–55) for an entry whose
`unix_dpath()` is `path`, where `exclude` is the filter's decision and `isDirectory` is
`ei.is_directory()`: the line it writes, or nothing. -/
def debugFilterOutput (exclude isDirectory : Bool) (path : List Char) (mode : DebugFilterMode) :
    List Char :=
  if (if exclude then mode == .included || mode == .includedFiles
      else mode == .excluded || mode == .excludedFiles) then []
  else
    let filesOnly := mode == .files || mode == .includedFiles || mode == .excludedFiles
    if filesOnly && isDirectory then []
    else
      let sign := if mode == .files || mode == .all then
        (if exclude then "- ".toList else "+ ".toList) else []
      sign ++ path ++ ['\n']

/-- The modes of `--debug-filter`: `included` and `excluded` show an entry's path on the
side of the filter's decision and nothing on the other, `all` shows it with `+ ` or `- `,
and `included-files`, `excluded-files` and `files` show what `included`, `excluded` and
`all` show, for anything but a directory. -/
theorem debugFilterOutput_modes (exclude isDirectory : Bool) (path : List Char) :
    debugFilterOutput exclude isDirectory path .included =
        (if exclude then [] else path ++ ['\n']) ∧
      debugFilterOutput exclude isDirectory path .excluded =
        (if exclude then path ++ ['\n'] else []) ∧
      debugFilterOutput exclude isDirectory path .all =
        (if exclude then "- ".toList else "+ ".toList) ++ path ++ ['\n'] ∧
      debugFilterOutput exclude isDirectory path .includedFiles =
        (if isDirectory then [] else debugFilterOutput exclude isDirectory path .included) ∧
      debugFilterOutput exclude isDirectory path .excludedFiles =
        (if isDirectory then [] else debugFilterOutput exclude isDirectory path .excluded) ∧
      debugFilterOutput exclude isDirectory path .files =
        (if isDirectory then [] else debugFilterOutput exclude isDirectory path .all) := by
  cases exclude <;> cases isDirectory <;> simp [debugFilterOutput]

/-- Under `all`, a removed entry is shown with `- `. -/
example : debugFilterOutput true false "/a/b.o".toList .all = "- /a/b.o\n".toList := rfl

end Dwarfs.Filter
