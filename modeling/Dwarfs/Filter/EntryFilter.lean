/-
# The `rule_based_entry_filter_` object across calls

`rule_based_entry_filter_` (src/src/writer/rule_based_entry_filter.cpp, lines 67–88)
holds `root_path_` and `filter_`. `add_rule` pushes each compiled rule onto `filter_` as
it goes (line 242), so a call that throws leaves the rules it pushed before the
exception; a caller that catches the exception goes on with them. The model of
`Dwarfs.Filter.addRule` returns only the exception; here `add_rule` and `add_rules`
return `filter_` after the call together with the exception, and `RuleBasedEntryFilter.run`
makes public calls in turn, each exception caught. As in `Dwarfs.Filter.Merge`, the rule
compiler is a parameter.

* `toExcept_addRule`: the object returns and throws as the `Except` model says;
* `addRules_object`: a call returns exactly when its lines expand with no cycle, and throws
  `e` exactly when `ThrowsAfter` reads up to `e`; either way `filter_` holds the rules it
  had followed by the expansion of the lines read before the exception;
* `run_keeps_rules`: over any run of calls, exceptions included, `filter_` keeps the
  rules it had and gains only compiled rules, so an entry that one of the old rules
  matched keeps its action;
* `run_of_no_exception`: when no call throws, `filter_` gains the depth-first expansions
  of the calls, in order.
-/
import Dwarfs.Filter.Merge

namespace Dwarfs.Filter

open Regex

/-- The members of `rule_based_entry_filter_` that its methods change: `root_path_` and
`filter_`. -/
structure RuleBasedEntryFilter (Rule : Type) where
  rootPath : List Char
  rules : List Rule
  deriving DecidableEq, Repr

namespace RuleBasedEntryFilter

variable {Rule : Type}

/-- The object the constructor makes: no root and no rules. -/
def initial : RuleBasedEntryFilter Rule := ⟨[], []⟩

/-- Go on with `k` on the rules a call left when it returned; keep the rules and the
exception when it threw. -/
def andThen (r : List Rule × Option RuleError) (k : List Rule → List Rule × Option RuleError) :
    List Rule × Option RuleError :=
  match r with
  | (rules, none) => k rules
  | (rules, some e) => (rules, some e)

mutual

/-- `add_rule(seen_files, rule)` on `filter_`: the rules after the call, and the exception
it throws. A rule is compiled before `push_back`, so one that does not compile adds
nothing; the rules a merged file pushed before an exception stay. -/
def addRule (compile : List Char → Except CompileError Rule) (store : RuleStore)
    (seen : List (List Char)) (rule : List Char) (rules : List Rule) :
    List Rule × Option RuleError :=
  if rule.head? = some '.' then
    match mergeFile rule with
    | none => (rules, some (.noFile rule))
    | some file =>
      if _hf : file ∈ seen then (rules, some (.recursion file))
      else
        match _hs : store.lookup file with
        | none => (rules, some (.openFailed file))
        | some text => addRules compile store (file :: seen) (getLines text) rules
  else
    match compile rule with
    | .ok r => (rules ++ [r], none)
    | .error e => (rules, some (.compile e))
termination_by (keysOut store seen, 0)
decreasing_by exact Prod.Lex.left _ _ (keysOut_lt _hs _hf)

/-- `add_rules(seen_files, is)` on `filter_`: it stops at the first exception. -/
def addRules (compile : List Char → Except CompileError Rule) (store : RuleStore)
    (seen : List (List Char)) (lines : List (List Char)) (rules : List Rule) :
    List Rule × Option RuleError :=
  match lines with
  | [] => (rules, none)
  | line :: lines =>
    if skipLine line then addRules compile store seen lines rules
    else andThen (addRule compile store seen line rules) fun rules =>
      addRules compile store seen lines rules
termination_by (keysOut store seen, lines.length + 1)

end

/-- The public methods that change the object. -/
inductive Call
  | setRootPath (path : List Char)
  | addRule (rule : List Char)
  | addRules (text : List Char)
  deriving DecidableEq, Repr

/-- A public call: `set_root_path`, or `add_rule(rule)` and `add_rules(is)` on a stream
holding `text`, which start with an empty `seen_files`. -/
def call (compile : List Char → Except CompileError Rule) (store : RuleStore)
    (s : RuleBasedEntryFilter Rule) : Call → RuleBasedEntryFilter Rule × Option RuleError
  | .setRootPath path => ({ s with rootPath := Filter.setRootPath path }, none)
  | .addRule rule =>
    let r := addRule compile store [] rule s.rules
    ({ s with rules := r.1 }, r.2)
  | .addRules text =>
    let r := addRules compile store [] (getLines text) s.rules
    ({ s with rules := r.1 }, r.2)

/-- Public calls in turn, each exception caught by the caller: the object after them, and
the exceptions thrown. -/
def run (compile : List Char → Except CompileError Rule) (store : RuleStore) :
    RuleBasedEntryFilter Rule → List Call → RuleBasedEntryFilter Rule × List RuleError
  | s, [] => (s, [])
  | s, c :: cs =>
    let r := run compile store (call compile store s c).1 cs
    (r.1, (call compile store s c).2.toList ++ r.2)

/-- The `Except` view of what a call leaves: the rules when it returns, the exception when
it throws. -/
def toExcept : List Rule × Option RuleError → Except RuleError (List Rule)
  | (rules, none) => .ok rules
  | (_, some e) => .error e

/-- The lines a call reads at the top: none for `set_root_path`, the rule for `add_rule`,
and the lines of the text for `add_rules`. -/
def Call.lines : Call → List (List Char)
  | .setRootPath _ => []
  | .addRule rule => [rule]
  | .addRules text => getLines text

/-! ## One step of `add_rule` and `add_rules` -/

section Steps

variable {compile : List Char → Except CompileError Rule} {store : RuleStore}
  {seen : List (List Char)} {rule file text : List Char} {rules : List Rule}

@[simp] theorem andThen_ok (rules : List Rule) (k : List Rule → List Rule × Option RuleError) :
    andThen (rules, none) k = k rules := rfl

@[simp] theorem andThen_error (rules : List Rule) (e : RuleError)
    (k : List Rule → List Rule × Option RuleError) :
    andThen (rules, some e) k = (rules, some e) := rfl

theorem andThen_assoc (r : List Rule × Option RuleError)
    (k k' : List Rule → List Rule × Option RuleError) :
    andThen (andThen r k) k' = andThen r fun rules => andThen (k rules) k' := by
  obtain ⟨rules, _ | e⟩ := r <;> rfl

theorem toExcept_andThen (r : List Rule × Option RuleError)
    (k : List Rule → List Rule × Option RuleError) :
    toExcept (andThen r k) = toExcept r >>= fun rules => toExcept (k rules) := by
  obtain ⟨rules, _ | e⟩ := r <;> rfl

theorem addRule_noFile (h : rule.head? = some '.') (hm : mergeFile rule = none) :
    addRule compile store seen rule rules = (rules, some (.noFile rule)) := by
  rw [addRule, if_pos h, hm]

theorem addRule_recursion (hm : mergeFile rule = some file) (hf : file ∈ seen) :
    addRule compile store seen rule rules = (rules, some (.recursion file)) := by
  rw [addRule, if_pos (head_of_mergeFile hm), hm]
  simp [hf]

theorem addRule_openFailed (hm : mergeFile rule = some file) (hf : file ∉ seen)
    (hs : store.lookup file = none) :
    addRule compile store seen rule rules = (rules, some (.openFailed file)) := by
  rw [addRule, if_pos (head_of_mergeFile hm), hm]
  simp only [hf, dite_false]
  split <;> simp_all

theorem addRule_merge (hm : mergeFile rule = some file) (hf : file ∉ seen)
    (hs : store.lookup file = some text) :
    addRule compile store seen rule rules =
      addRules compile store (file :: seen) (getLines text) rules := by
  rw [addRule, if_pos (head_of_mergeFile hm), hm]
  simp only [hf, dite_false]
  split <;> simp_all

theorem addRule_compile_ok (h : rule.head? ≠ some '.') {r : Rule} (hr : compile rule = .ok r) :
    addRule compile store seen rule rules = (rules ++ [r], none) := by
  rw [addRule, if_neg h, hr]

theorem addRule_compile_error (h : rule.head? ≠ some '.') {e : CompileError}
    (he : compile rule = .error e) :
    addRule compile store seen rule rules = (rules, some (.compile e)) := by
  rw [addRule, if_neg h, he]

theorem addRules_nil : addRules compile store seen [] rules = (rules, none) := by
  rw [addRules]

theorem addRules_skip {line : List Char} {lines : List (List Char)} (h : skipLine line = true) :
    addRules compile store seen (line :: lines) rules = addRules compile store seen lines rules := by
  rw [addRules, if_pos h]

theorem addRules_cons {line : List Char} {lines : List (List Char)} (h : skipLine line = false) :
    addRules compile store seen (line :: lines) rules =
      andThen (addRule compile store seen line rules) (addRules compile store seen lines) := by
  rw [addRules, if_neg (by simp [h])]

end Steps

/-! ## The object refines the `Except` model -/

/-- A call returns the rules the `Except` model returns, or throws the exception it
throws. -/
theorem toExcept_addRule (compile : List Char → Except CompileError Rule) (store : RuleStore) :
    (∀ seen rule rules, toExcept (addRule compile store seen rule rules) =
      Filter.addRule compile store seen rule rules) ∧
    (∀ seen lines rules, toExcept (addRules compile store seen lines rules) =
      Filter.addRules compile store seen lines rules) := by
  refine ⟨addRule.induct compile store _ _ ?noFile ?recursion ?openFailed ?merge ?ok ?error ?nil
    ?skip ?cons, addRules.induct compile store _ _ ?noFile ?recursion ?openFailed ?merge ?ok
    ?error ?nil ?skip ?cons⟩
  case noFile =>
    intro seen rule rules hd hm
    rw [addRule_noFile hd hm, Filter.addRule_noFile hd hm]
    rfl
  case recursion =>
    intro seen rule rules _ file hm hf
    rw [addRule_recursion hm hf, Filter.addRule_recursion hm hf]
    rfl
  case openFailed =>
    intro seen rule rules _ file hm hf hs
    rw [addRule_openFailed hm hf hs, Filter.addRule_openFailed hm hf hs]
    rfl
  case merge =>
    intro seen rule rules _ file hm hf text hs ih
    rw [addRule_merge hm hf hs, Filter.addRule_merge hm hf hs, ih]
  case ok =>
    intro seen rule rules hd r hc
    rw [addRule_compile_ok hd hc, Filter.addRule_compile hd, hc]
    rfl
  case error =>
    intro seen rule rules hd e he
    rw [addRule_compile_error hd he, Filter.addRule_compile hd, he]
    rfl
  case nil =>
    intro seen rules
    rw [addRules_nil, Filter.addRules]
    rfl
  case skip =>
    intro seen rules line lines hs ih
    rw [addRules_skip hs, Filter.addRules_skip hs, ih]
  case cons =>
    intro seen rules line lines hs ih₁ ih₂
    rw [Bool.not_eq_true] at hs
    rw [addRules_cons hs, Filter.addRules_cons hs, toExcept_andThen, ih₁]
    simp only [ih₂]

section Returns

variable {compile : List Char → Except CompileError Rule} {store : RuleStore}
  {seen lines : List (List Char)} {line : List Char} {rules rules' rs : List Rule}

/-- A call that returns appended the expansion of what it read, through no cycle. -/
theorem addRule_returns (h : addRule compile store seen line rules = (rules', none)) :
    (∃ rs, rules' = rules ++ rs ∧ ExpandsRule compile store line rs) ∧
      Acyclic store seen [line] :=
  (addRule_ok compile store).1 seen line rules rules' <| by
    rw [← (toExcept_addRule compile store).1, h]
    rfl

theorem addRules_returns (h : addRules compile store seen lines rules = (rules', none)) :
    (∃ rs, rules' = rules ++ rs ∧ Expands compile store lines rs) ∧ Acyclic store seen lines :=
  (addRule_ok compile store).2 seen lines rules rules' <| by
    rw [← (toExcept_addRule compile store).2, h]
    rfl

variable (hsign : ChecksSign compile)
include hsign

/-- Conversely, lines that expand with no cycle are read through. -/
theorem addRules_of_expands (he : Expands compile store lines rs) (hac : Acyclic store seen lines) :
    addRules compile store seen lines rules = (rules ++ rs, none) := by
  induction he generalizing seen rules with
  | nil => rw [addRules_nil, List.append_nil]
  | skip hl _ ih => rw [addRules_skip hl, ih (acyclic_cons.mp hac).2]
  | @rule line _ r _ hl _ hr _ ih =>
    have hd : line.head? ≠ some '.' := fun hd => hsign.ne_ok_of_dot hd r hr
    rw [addRules_cons hl, addRule_compile_ok hd hr, andThen_ok, ih (acyclic_cons.mp hac).2]
    simp
  | merge hm hs _ _ ih₁ ih₂ =>
    obtain ⟨hf, hac₁⟩ := (acyclic_cons.mp hac).1.push hm hs
    rw [addRules_cons (skipLine_of_mergeFile hm), addRule_merge hm hf hs, ih₁ hac₁, andThen_ok,
      ih₂ (acyclic_cons.mp hac).2, List.append_assoc]

theorem addRule_of_expandsRule (he : ExpandsRule compile store line rs)
    (hac : Acyclic store seen [line]) :
    addRule compile store seen line rules = (rules ++ rs, none) := by
  rcases he with ⟨-, r, hr, rfl⟩ | ⟨file, text, hm, hs, he⟩
  · exact addRule_compile_ok (fun hd => hsign.ne_ok_of_dot hd r hr) hr
  · obtain ⟨hf, hac₁⟩ := hac.push hm hs
    rw [addRule_merge hm hf hs, addRules_of_expands hsign he hac₁]

end Returns

/-! ## Reading up to an exception -/

/-- How reading `line` throws `e` before it pushes a rule: the rule does not compile, the
directive names no file, the file is on the include stack, or it cannot be opened. -/
inductive LineThrows (compile : List Char → Except CompileError Rule) (store : RuleStore)
    (seen : List (List Char)) : List Char → RuleError → Prop
  | compileError {line : List Char} {e : CompileError} :
      line.head? ≠ some '.' → compile line = .error e → LineThrows compile store seen line (.compile e)
  | noFile {line : List Char} :
      line.head? = some '.' → mergeFile line = none → LineThrows compile store seen line (.noFile line)
  | recursion {line file : List Char} :
      mergeFile line = some file → file ∈ seen → LineThrows compile store seen line (.recursion file)
  | openFailed {line file : List Char} :
      mergeFile line = some file → file ∉ seen → store.lookup file = none →
        LineThrows compile store seen line (.openFailed file)

/-- **Reading up to an exception.** Reading `lines` depth-first under the include stack
`seen` throws `e` after pushing `rs`: skipped lines and lines read through (their
expansion, with no cycle) come first, then the line that throws, or a merge directive
whose file throws after pushing `rs`. -/
inductive ThrowsAfter (compile : List Char → Except CompileError Rule) (store : RuleStore) :
    List (List Char) → List (List Char) → List Rule → RuleError → Prop
  | skip {seen lines : List (List Char)} {line : List Char} {rs : List Rule} {e : RuleError} :
      skipLine line = true → ThrowsAfter compile store seen lines rs e →
        ThrowsAfter compile store seen (line :: lines) rs e
  | read {seen lines : List (List Char)} {line : List Char} {rs₁ rs₂ : List Rule}
      {e : RuleError} :
      skipLine line = false → ExpandsRule compile store line rs₁ → Acyclic store seen [line] →
        ThrowsAfter compile store seen lines rs₂ e →
          ThrowsAfter compile store seen (line :: lines) (rs₁ ++ rs₂) e
  | here {seen lines : List (List Char)} {line : List Char} {e : RuleError} :
      skipLine line = false → LineThrows compile store seen line e →
        ThrowsAfter compile store seen (line :: lines) [] e
  | inside {seen lines : List (List Char)} {line file text : List Char} {rs : List Rule}
      {e : RuleError} :
      mergeFile line = some file → file ∉ seen → store.lookup file = some text →
        ThrowsAfter compile store (file :: seen) (getLines text) rs e →
          ThrowsAfter compile store seen (line :: lines) rs e

section Throws

variable {compile : List Char → Except CompileError Rule} {store : RuleStore}
  {seen lines : List (List Char)} {line : List Char} {rules rs : List Rule} {e : RuleError}

theorem addRule_of_lineThrows (h : LineThrows compile store seen line e) :
    addRule compile store seen line rules = (rules, some e) := by
  cases h with
  | compileError hd he => exact addRule_compile_error hd he
  | noFile hd hm => exact addRule_noFile hd hm
  | recursion hm hf => exact addRule_recursion hm hf
  | openFailed hm hf hs => exact addRule_openFailed hm hf hs

/-- A line that throws leaves the rules as they were. -/
theorem throwsAfter_of_lineThrows {rule : List Char} {e' : RuleError} {rules' : List Rule}
    (hlt : LineThrows compile store seen rule e') (hl : skipLine rule = false)
    (h : addRule compile store seen rule rules = (rules', some e)) :
    ∃ rs, rules' = rules ++ rs ∧ ∀ lines, ThrowsAfter compile store seen (rule :: lines) rs e := by
  rw [addRule_of_lineThrows hlt] at h
  cases h
  exact ⟨[], by simp, fun _ => .here hl hlt⟩

/-- A call that throws has read up to the exception. -/
theorem addRule_throws (compile : List Char → Except CompileError Rule) (store : RuleStore) :
    (∀ seen rule rules rules' e, skipLine rule = false →
      addRule compile store seen rule rules = (rules', some e) →
        ∃ rs, rules' = rules ++ rs ∧ ∀ lines, ThrowsAfter compile store seen (rule :: lines) rs e) ∧
    (∀ seen lines rules rules' e, addRules compile store seen lines rules = (rules', some e) →
      ∃ rs, rules' = rules ++ rs ∧ ThrowsAfter compile store seen lines rs e) := by
  refine ⟨addRule.induct compile store _ _ ?noFile ?recursion ?openFailed ?merge ?ok ?error ?nil
    ?skip ?cons, addRules.induct compile store _ _ ?noFile ?recursion ?openFailed ?merge ?ok
    ?error ?nil ?skip ?cons⟩
  case noFile =>
    intro seen rule rules hd hm rules' e hl h
    exact throwsAfter_of_lineThrows (.noFile hd hm) hl h
  case recursion =>
    intro seen rule rules _ file hm hf rules' e hl h
    exact throwsAfter_of_lineThrows (.recursion hm hf) hl h
  case openFailed =>
    intro seen rule rules _ file hm hf hs rules' e hl h
    exact throwsAfter_of_lineThrows (.openFailed hm hf hs) hl h
  case merge =>
    intro seen rule rules _ file hm hf text hs ih rules' e _ h
    rw [addRule_merge hm hf hs] at h
    obtain ⟨rs, rfl, ht⟩ := ih rules' e h
    exact ⟨rs, rfl, fun _ => .inside hm hf hs ht⟩
  case ok =>
    intro seen rule rules hd r hc rules' e _ h
    rw [addRule_compile_ok hd hc] at h
    cases h
  case error =>
    intro seen rule rules hd e' he rules' e hl h
    exact throwsAfter_of_lineThrows (.compileError hd he) hl h
  case nil =>
    intro seen rules rules' e h
    rw [addRules_nil] at h
    cases h
  case skip =>
    intro seen rules line lines hs ih rules' e h
    rw [addRules_skip hs] at h
    obtain ⟨rs, rfl, ht⟩ := ih rules' e h
    exact ⟨rs, rfl, .skip hs ht⟩
  case cons =>
    intro seen rules line lines hs ih₁ ih₂ rules' e h
    rw [Bool.not_eq_true] at hs
    rw [addRules_cons hs] at h
    rcases h₁ : addRule compile store seen line rules with ⟨rules₁, _ | e₁⟩
    · rw [h₁, andThen_ok] at h
      obtain ⟨⟨rs₁, rfl, he⟩, hac⟩ := addRule_returns h₁
      obtain ⟨rs₂, rfl, ht⟩ := ih₂ _ rules' e h
      exact ⟨rs₁ ++ rs₂, by simp, .read hs he hac ht⟩
    · rw [h₁, andThen_error] at h
      cases h
      obtain ⟨rs, rfl, ht⟩ := ih₁ _ _ hs h₁
      exact ⟨rs, rfl, ht lines⟩

/-- Conversely, lines read up to an exception throw it, after pushing what was read. -/
theorem addRules_of_throwsAfter (hsign : ChecksSign compile)
    (h : ThrowsAfter compile store seen lines rs e) :
    addRules compile store seen lines rules = (rules ++ rs, some e) := by
  induction h generalizing rules with
  | skip hl _ ih => rw [addRules_skip hl, ih]
  | read hl he hac _ ih =>
    rw [addRules_cons hl, addRule_of_expandsRule hsign he hac, andThen_ok, ih, List.append_assoc]
  | here hl ht => rw [addRules_cons hl, addRule_of_lineThrows ht, andThen_error, List.append_nil]
  | inside hm hf hs _ ih =>
    rw [addRules_cons (skipLine_of_mergeFile hm), addRule_merge hm hf hs, ih, andThen_error]

end Throws

/-- **What a call leaves.** For any rule compiler that reads the sign first, a call of
`add_rules` returns exactly when its lines expand depth-first with no file on the stack
or reaching itself, and it throws `e` exactly when reading the lines depth-first reaches
`e`. Either way `filter_` holds the rules it had, followed by the expansion of what was
read: when it throws, the rules pushed before the exception stay. -/
theorem addRules_object (compile : List Char → Except CompileError Rule)
    (hsign : ChecksSign compile) (store : RuleStore) (seen lines : List (List Char))
    (rules rules' : List Rule) :
    (addRules compile store seen lines rules = (rules', none) ↔
      ∃ rs, rules' = rules ++ rs ∧ Expands compile store lines rs ∧ Acyclic store seen lines) ∧
    ∀ e, (addRules compile store seen lines rules = (rules', some e) ↔
      ∃ rs, rules' = rules ++ rs ∧ ThrowsAfter compile store seen lines rs e) := by
  refine ⟨⟨fun h => ?_, fun ⟨rs, hrs, he, hac⟩ => ?_⟩, fun e => ⟨fun h => ?_, ?_⟩⟩
  · obtain ⟨⟨rs, hrs, he⟩, hac⟩ := addRules_returns h
    exact ⟨rs, hrs, he, hac⟩
  · rw [hrs, addRules_of_expands hsign he hac]
  · exact (addRule_throws compile store).2 seen lines rules rules' e h
  · rintro ⟨rs, rfl, ht⟩
    exact addRules_of_throwsAfter hsign ht

/-- The rule `+a` stays when the next line, `x`, throws: reading the lines up to the
exception pushed it. -/
theorem addRules_object_rule_stays :
    ChecksSign compileFilterRule ∧ ∃ r e,
      addRules compileFilterRule [] [] ["+a".toList, "x".toList] [] = ([r], some e) ∧
        ThrowsAfter compileFilterRule [] [] ["+a".toList, "x".toList] [r] e := by
  obtain ⟨r, hr⟩ : ∃ r, compileFilterRule "+a".toList = .ok r := ⟨_, rfl⟩
  obtain ⟨e, he⟩ : ∃ e, compileFilterRule "x".toList = .error e := ⟨_, rfl⟩
  have h : addRules compileFilterRule [] [] ["+a".toList, "x".toList] [] = ([r], some (.compile e)) := by
    rw [addRules_cons (by decide), addRule_compile_ok (by decide) hr, andThen_ok,
      addRules_cons (by decide), addRule_compile_error (by decide) he, andThen_error]
    rfl
  obtain ⟨rs, hrs, ht⟩ :=
    ((addRules_object compileFilterRule checksSign_compileFilterRule [] [] _ [] [r]).2 _).1 h
  rw [List.nil_append] at hrs
  exact ⟨checksSign_compileFilterRule, r, _, h, hrs ▸ ht⟩

/-- **Two runs of lines.** `add_rules` over `lines₁ ++ lines₂` reads `lines₁` and then,
unless that threw, `lines₂` on the rules it left, with the same include stack: a rule
file split in two and read in turn gives the same `filter_` and the same exception, when
the caller stops at the first exception. -/
theorem addRules_append (compile : List Char → Except CompileError Rule) (store : RuleStore)
    (seen : List (List Char)) (lines₁ lines₂ : List (List Char)) (rules : List Rule) :
    addRules compile store seen (lines₁ ++ lines₂) rules =
      andThen (addRules compile store seen lines₁ rules) (addRules compile store seen lines₂) := by
  induction lines₁ generalizing rules with
  | nil => rw [List.nil_append, addRules_nil, andThen_ok]
  | cons line lines₁ ih =>
    cases hs : skipLine line
    · rw [List.cons_append, addRules_cons hs, addRules_cons hs, andThen_assoc]
      exact congrArg (andThen _) (funext ih)
    · rw [List.cons_append, addRules_skip hs, addRules_skip hs, ih]

/-! ## What one call leaves -/

/-- Rules each compiled from a line that reading `start` can reach. -/
def CompiledFrom (compile : List Char → Except CompileError Rule) (store : RuleStore)
    (start : List (List Char)) (rs : List Rule) : Prop :=
  ∀ r ∈ rs, ∃ line, ReachableLine store start line ∧ compile line = .ok r

theorem CompiledFrom.append {compile : List Char → Except CompileError Rule} {store : RuleStore}
    {start : List (List Char)} {rs₁ rs₂ : List Rule} (h₁ : CompiledFrom compile store start rs₁)
    (h₂ : CompiledFrom compile store start rs₂) : CompiledFrom compile store start (rs₁ ++ rs₂) :=
  fun r hr => (List.mem_append.mp hr).elim (h₁ r) (h₂ r)

/-- Whatever a call reading from `start` does, `filter_` keeps its rules and gains rules
compiled from lines it could read. -/
theorem addRule_leaves (compile : List Char → Except CompileError Rule) (store : RuleStore)
    (start : List (List Char)) :
    (∀ seen rule rules, ReadFrom store start seen [rule] →
      ∃ rs, (addRule compile store seen rule rules).1 = rules ++ rs ∧
        CompiledFrom compile store start rs) ∧
    (∀ seen lines rules, ReadFrom store start seen lines →
      ∃ rs, (addRules compile store seen lines rules).1 = rules ++ rs ∧
        CompiledFrom compile store start rs) := by
  have hsame : ∀ rules : List Rule,
      ∃ rs, rules = rules ++ rs ∧ CompiledFrom compile store start rs :=
    fun rules => ⟨[], by simp, fun _ h => nomatch h⟩
  refine ⟨addRule.induct compile store _ _ ?noFile ?recursion ?openFailed ?merge ?ok ?error ?nil
    ?skip ?cons, addRules.induct compile store _ _ ?noFile ?recursion ?openFailed ?merge ?ok
    ?error ?nil ?skip ?cons⟩
  case noFile =>
    intro seen rule rules hd hm _
    rw [addRule_noFile hd hm]
    exact hsame rules
  case recursion =>
    intro seen rule rules _ file hm hf _
    rw [addRule_recursion hm hf]
    exact hsame rules
  case openFailed =>
    intro seen rule rules _ file hm hf hs _
    rw [addRule_openFailed hm hf hs]
    exact hsame rules
  case merge =>
    intro seen rule rules _ file hm hf text hs ih hr
    rw [addRule_merge hm hf hs]
    exact ih (hr.push (List.mem_singleton_self rule) hm hs)
  case ok =>
    intro seen rule rules hd r hc hr
    rw [addRule_compile_ok hd hc]
    refine ⟨[r], rfl, fun r' hr' => ?_⟩
    obtain rfl := List.mem_singleton.mp hr'
    exact ⟨rule, (hr.reachable (List.mem_singleton_self rule)).1, hc⟩
  case error =>
    intro seen rule rules hd e he _
    rw [addRule_compile_error hd he]
    exact hsame rules
  case nil =>
    intro seen rules _
    rw [addRules_nil]
    exact hsame rules
  case skip =>
    intro seen rules line lines hs ih hr
    rw [addRules_skip hs]
    exact ih (hr.mono (List.subset_cons_self line lines))
  case cons =>
    intro seen rules line lines hs ih₁ ih₂ hr
    rw [Bool.not_eq_true] at hs
    rw [addRules_cons hs]
    obtain ⟨rs₁, h₁, hc₁⟩ := ih₁ (hr.mono (by simp))
    rcases h : addRule compile store seen line rules with ⟨rules₁, _ | e⟩
    all_goals rw [h] at h₁; subst h₁
    · obtain ⟨rs₂, h₂, hc₂⟩ :=
        ih₂ (rules ++ rs₁) (hr.mono (List.subset_cons_self line lines))
      exact ⟨rs₁ ++ rs₂, by rw [andThen_ok, h₂, List.append_assoc], hc₁.append hc₂⟩
    · exact ⟨rs₁, rfl, hc₁⟩

/-! ## Runs of public calls -/

/-- What a call that returns appends: nothing for `set_root_path`, the expansion of the
rule for `add_rule`, and that of the text's lines for `add_rules`. -/
def CallExpands (compile : List Char → Except CompileError Rule) (store : RuleStore) :
    Call → List Rule → Prop
  | .setRootPath _, rs => rs = []
  | .addRule rule, rs => ExpandsRule compile store rule rs
  | .addRules text, rs => Expands compile store (getLines text) rs

section Run

variable {compile : List Char → Except CompileError Rule} {store : RuleStore}

/-- Rules appended after a rule that matches change no action. -/
theorem firstAction_append_of_match [CompiledRule Rule] {path relpath : List Char}
    {rules : List Rule} (more : List Rule) (h : ∃ r ∈ rules, ruleMatches r path relpath = true) :
    firstAction path relpath (rules ++ more) = firstAction path relpath rules := by
  induction rules with
  | nil => simp at h
  | cons r rules ih =>
    rw [List.cons_append, firstAction, firstAction]
    by_cases hr : ruleMatches r path relpath = true
    · rw [if_pos hr, if_pos hr]
    · rw [if_neg hr, if_neg hr]
      obtain ⟨r', hr', hm⟩ := h
      rcases List.mem_cons.mp hr' with rfl | hr'
      · exact absurd hm hr
      · exact ih ⟨r', hr', hm⟩

theorem toExcept_of_none {r : List Rule × Option RuleError} (h : r.2 = none) :
    toExcept r = .ok r.1 := by
  obtain ⟨rules, _ | e⟩ := r
  · rfl
  · cases h

/-- One call keeps the rules and gains rules compiled from lines it could read. -/
theorem call_leaves (s : RuleBasedEntryFilter Rule) (c : Call) :
    ∃ rs, (call compile store s c).1.rules = s.rules ++ rs ∧
      CompiledFrom compile store c.lines rs := by
  cases c with
  | setRootPath path => exact ⟨[], by simp [call], fun _ h => nomatch h⟩
  | addRule rule =>
    exact (addRule_leaves compile store [rule]).1 [] rule s.rules (List.Subset.refl _)
  | addRules text => exact (addRule_leaves compile store _).2 [] _ s.rules (List.Subset.refl _)

/-- One call that returns appends its expansion. -/
theorem call_expands (s : RuleBasedEntryFilter Rule) (c : Call)
    (h : (call compile store s c).2 = none) :
    ∃ rs, (call compile store s c).1.rules = s.rules ++ rs ∧ CallExpands compile store c rs := by
  cases c with
  | setRootPath path => exact ⟨[], by simp [call], rfl⟩
  | addRule rule => exact (addRule_returns (Prod.ext rfl h)).1
  | addRules text => exact (addRules_returns (Prod.ext rfl h)).1

theorem run_nil (s : RuleBasedEntryFilter Rule) : run compile store s [] = (s, []) := rfl

theorem run_cons (s : RuleBasedEntryFilter Rule) (c : Call) (cs : List Call) :
    run compile store s (c :: cs) =
      ((run compile store (call compile store s c).1 cs).1,
        (call compile store s c).2.toList ++ (run compile store (call compile store s c).1 cs).2) :=
  rfl

end Run

/-- **A run keeps its rules.** Over any run of public calls, each exception caught by the
caller, `filter_` keeps the rules it had, in order, and gains only rules compiled from
lines the calls could read; so an entry that one of the old rules matches keeps its
action, under any root, whatever was added and whatever threw. -/
theorem run_keeps_rules [CompiledRule Rule] (compile : List Char → Except CompileError Rule)
    (store : RuleStore) (s : RuleBasedEntryFilter Rule) (calls : List Call) :
    (∃ rs, (run compile store s calls).1.rules = s.rules ++ rs ∧
      ∀ r ∈ rs, ∃ c ∈ calls, ∃ line, ReachableLine store c.lines line ∧ compile line = .ok r) ∧
    ∀ rootPath path, (∃ r ∈ s.rules, ruleMatches r path (relPath rootPath path) = true) →
      filter rootPath (run compile store s calls).1.rules path = filter rootPath s.rules path := by
  have hrun : ∃ rs, (run compile store s calls).1.rules = s.rules ++ rs ∧
      ∀ r ∈ rs, ∃ c ∈ calls, ∃ line, ReachableLine store c.lines line ∧ compile line = .ok r := by
    induction calls generalizing s with
    | nil => exact ⟨[], by simp [run_nil], fun _ h => nomatch h⟩
    | cons c cs ih =>
      obtain ⟨rs₁, h₁, hc₁⟩ : ∃ rs, (call compile store s c).1.rules = s.rules ++ rs ∧
          CompiledFrom compile store c.lines rs := call_leaves s c
      obtain ⟨rs₂, h₂, hc₂⟩ := ih (call compile store s c).1
      refine ⟨rs₁ ++ rs₂, by rw [run_cons, h₂, h₁, List.append_assoc], fun r hr => ?_⟩
      rcases List.mem_append.mp hr with hr | hr
      · exact ⟨c, List.mem_cons_self c cs, hc₁ r hr⟩
      · obtain ⟨c', hc', hl⟩ := hc₂ r hr
        exact ⟨c', List.mem_cons_of_mem c hc', hl⟩
  refine ⟨hrun, fun rootPath path hm => ?_⟩
  obtain ⟨rs, hrs, -⟩ := hrun
  rw [filter, filter, hrs, firstAction_append_of_match rs hm]

/-- **A run without exceptions.** When no call of a run throws, `filter_` gains the
depth-first expansions of the calls, in order. -/
theorem run_of_no_exception (compile : List Char → Except CompileError Rule) (store : RuleStore)
    (s : RuleBasedEntryFilter Rule) (calls : List Call) (h : (run compile store s calls).2 = []) :
    ∃ rss, List.Forall₂ (CallExpands compile store) calls rss ∧
      (run compile store s calls).1.rules = s.rules ++ rss.flatten := by
  induction calls generalizing s with
  | nil => exact ⟨[], .nil, by simp [run_nil]⟩
  | cons c cs ih =>
    rw [run_cons] at h ⊢
    obtain ⟨h₁, h₂⟩ := List.append_eq_nil.mp h
    have hnone : (call compile store s c).2 = none := by
      cases he : (call compile store s c).2
      · rfl
      · simp [he] at h₁
    obtain ⟨rs, hrs, he⟩ := call_expands s c hnone
    obtain ⟨rss, hall, hrss⟩ := ih (call compile store s c).1 h₂
    exact ⟨rs :: rss, .cons he hall, by rw [hrss, hrs, List.flatten_cons, List.append_assoc]⟩

/-- `set_root_path("/src")` and `add_rule("-*.o")` on a new object throw nothing. -/
theorem run_of_no_exception_root_rule :
    let calls := [Call.setRootPath "/src".toList, .addRule "-*.o".toList]
    (run compileFilterRule [] initial calls).2 = [] ∧
      ∃ rss, List.Forall₂ (CallExpands compileFilterRule []) calls rss ∧
        (run compileFilterRule [] initial calls).1.rules = initial.rules ++ rss.flatten := by
  intro calls
  obtain ⟨r, hr⟩ : ∃ r, compileFilterRule "-*.o".toList = .ok r := ⟨_, rfl⟩
  have h : (run compileFilterRule [] initial calls).2 = [] := by
    simp only [calls, run_cons, run_nil, call, addRule_compile_ok (by decide) hr]
    rfl
  exact ⟨h, run_of_no_exception compileFilterRule [] initial calls h⟩

end RuleBasedEntryFilter

end Dwarfs.Filter
