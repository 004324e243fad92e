/-
# `add_rule` and `add_rules`: merge directives and their expansion

`rule_based_entry_filter_::add_rule` and `add_rules`
(src/src/writer/rule_based_entry_filter.cpp, lines 207–260) read rules line by line with
`std::getline`, skip comments and lines of spaces and tabs, and hand every other line to
`add_rule`. A rule starting with `.` is a merge directive: the name after the blanks is
put into `seen_files`, the file is opened and its lines are added, and the name is erased
again; a name already in `seen_files` throws `recursion detected`. Any other rule is
compiled and appended to `filter_`.

`seen_files` is passed by reference and every name inserted is erased before the call
returns, so across the call it is the include stack; the model passes it by value.
`add_rule` and `add_rules` stay mutual, and terminate because a merge puts a new name of
the finite store on the stack (`keysOut_lt`).

`compile_filter_rule` is the parameter `compile`, with compiled rules of any type: the
merge logic never reads a regex, so the results hold for the code's compiler whatever
`std::regex` accepts, the model's `compileFilterRule` being one instance. The one thing
they ask of it is that it reads the sign first (`ChecksSign`): a rule that does not start
with `+` or `-` throws `rules must start with + or -`.

The main result, `addRules_merge`, compares the calls with `Expands`, the depth-first
expansion of the rule lines: a recursion error exactly when a file reachable from the
rules reaches itself, and otherwise the expansion appended to the rule list.
-/
import Dwarfs.Filter.Action
import Mathlib.Logic.Relation

namespace Dwarfs.Filter

open Regex

/-- The rule files `file_access::open_input` opens, by name, with their text. -/
abbrev RuleStore := List (List Char × List Char)

/-- The lines `std::getline` reads from a stream holding `text`: the text split at each
`\n`, with no line after a final `\n`. -/
def getLines (text : List Char) : List (List Char) :=
  let lines := text.splitOn '\n'
  if lines.getLast? = some [] then lines.dropLast else lines

/-- The blanks `find_first_not_of(" \t")` skips. -/
def isBlank (c : Char) : Bool := c == ' ' || c == '\t'

/-- `add_rules` skips a comment and a line of blanks. -/
def skipLine (line : List Char) : Bool := line.head? == some '#' || line.all isBlank

/-- The file a rule starting with `.` names: `rule.substr(rule.find_first_not_of(" \t", 1))`,
and `none` where that position is `npos`. -/
def mergeFile : List Char → Option (List Char)
  | '.' :: rest =>
    match rest.dropWhile isBlank with
    | [] => none
    | file => some file
  | _ => none

/-- What `add_rule` and `add_rules` throw. -/
inductive RuleError
  /-- `no file specified in merge rule: {rule}`. -/
  | noFile (rule : List Char)
  /-- `recursion detected while opening file: {file}`. -/
  | recursion (file : List Char)
  /-- `open_input` cannot open the file. -/
  | openFailed (file : List Char)
  /-- `compile_filter_rule` rejects the rule. -/
  | compile (e : CompileError)
  deriving DecidableEq, Repr

/-- The names of the store not on the include stack: what bounds the merge depth. -/
def keysOut (store : RuleStore) (seen : List (List Char)) : Nat :=
  store.countP fun e => e.1 ∉ seen

/-- Putting a stored name that is not on the stack onto it leaves fewer names out. -/
theorem keysOut_lt {store : RuleStore} {seen : List (List Char)} {file text : List Char}
    (hs : store.lookup file = some text) (hf : file ∉ seen) :
    keysOut store (file :: seen) < keysOut store seen := by
  induction store with
  | nil => simp at hs
  | cons e store ih =>
    obtain ⟨k, v⟩ := e
    have hle : keysOut store (file :: seen) ≤ keysOut store seen :=
      List.countP_mono_left fun x _ h => by
        simp only [List.mem_cons, not_or, decide_eq_true_eq] at h ⊢; exact h.2
    unfold keysOut at hle ih ⊢
    rw [List.countP_cons, List.countP_cons]
    simp only [List.lookup_cons] at hs
    split at hs
    · obtain rfl : k = file := (beq_iff_eq.mp ‹_›).symm
      rw [if_neg (by simp), if_pos (by simpa using hf)]
      omega
    · have h := ih hs
      have hk : decide ((k, v).1 ∉ file :: seen) = true → decide ((k, v).1 ∉ seen) = true := by
        simp only [List.mem_cons, not_or, decide_eq_true_eq]; exact And.right
      split_ifs with h1 h2 h2
      · omega
      · exact absurd (hk h1) h2
      · omega
      · omega

/-- `compile_filter_rule` reads the sign before the pattern (lines 99–108): a rule that
does not start with `+` or `-` throws `rules must start with + or -`. -/
def ChecksSign {Rule : Type} (compile : List Char → Except CompileError Rule) : Prop :=
  ∀ rule, rule.head? ≠ some '+' → rule.head? ≠ some '-' →
    compile rule = .error (.runtime "rules must start with + or -")

theorem checksSign_compileFilterRule : ChecksSign compileFilterRule := by
  intro rule hp hm
  cases rule with
  | nil => rfl
  | cons c rest =>
    simp only [List.head?_cons, ne_eq, Option.some.injEq] at hp hm
    rw [compileFilterRule_cons, if_neg hp, if_neg hm]

mutual

/-- `add_rule(seen_files, rule)`: a rule starting with `.` merges the file it names, the
name on the include stack while the file's rules are added; any other rule is compiled
and appended. -/
def addRule {Rule : Type} (compile : List Char → Except CompileError Rule) (store : RuleStore)
    (seen : List (List Char)) (rule : List Char) (rules : List Rule) :
    Except RuleError (List Rule) :=
  if rule.head? = some '.' then
    match mergeFile rule with
    | none => .error (.noFile rule)
    | some file =>
      if _hf : file ∈ seen then .error (.recursion file)
      else
        match _hs : store.lookup file with
        | none => .error (.openFailed file)
        | some text => addRules compile store (file :: seen) (getLines text) rules
  else
    match compile rule with
    | .ok r => .ok (rules ++ [r])
    | .error e => .error (.compile e)
termination_by (keysOut store seen, 0)
decreasing_by exact Prod.Lex.left _ _ (keysOut_lt _hs _hf)

/-- `add_rules(seen_files, is)` over the lines of the stream. -/
def addRules {Rule : Type} (compile : List Char → Except CompileError Rule) (store : RuleStore)
    (seen : List (List Char)) (lines : List (List Char)) (rules : List Rule) :
    Except RuleError (List Rule) :=
  match lines with
  | [] => .ok rules
  | line :: lines =>
    if skipLine line then addRules compile store seen lines rules
    else
      match addRule compile store seen line rules with
      | .ok rules => addRules compile store seen lines rules
      | .error e => .error e
termination_by (keysOut store seen, lines.length + 1)

end

/-! ## One step of `add_rule` and `add_rules` -/

section Steps

variable {Rule : Type} {compile : List Char → Except CompileError Rule} {store : RuleStore}
  {seen : List (List Char)} {rule file text : List Char} {rules : List Rule}

theorem head_of_mergeFile (h : mergeFile rule = some file) : rule.head? = some '.' := by
  unfold mergeFile at h
  split at h
  · rfl
  · cases h

/-- A merge directive is never skipped. -/
theorem skipLine_of_mergeFile (h : mergeFile rule = some file) : skipLine rule = false := by
  obtain ⟨rest, rfl⟩ := List.head?_eq_some_iff.mp (head_of_mergeFile h)
  simp [skipLine, isBlank]

theorem mergeFile_of_head (h : rule.head? ≠ some '.') : mergeFile rule = none := by
  cases hm : mergeFile rule
  · rfl
  · exact absurd (head_of_mergeFile hm) h

theorem mergeFile_of_skipLine (h : skipLine rule = true) : mergeFile rule = none := by
  cases hm : mergeFile rule
  · rfl
  · simp [skipLine_of_mergeFile hm] at h

/-- A rule starting with `.` never compiles: rules must start with `+` or `-`. -/
theorem ChecksSign.ne_ok_of_dot (hc : ChecksSign compile) (h : rule.head? = some '.') (r : Rule) :
    compile rule ≠ .ok r := by
  rw [hc rule (by rw [h]; decide) (by rw [h]; decide)]
  exact nofun

theorem addRule_noFile (h : rule.head? = some '.') (hm : mergeFile rule = none) :
    addRule compile store seen rule rules = .error (.noFile rule) := by
  rw [addRule, if_pos h, hm]

theorem addRule_recursion (hm : mergeFile rule = some file) (hf : file ∈ seen) :
    addRule compile store seen rule rules = .error (.recursion file) := by
  rw [addRule, if_pos (head_of_mergeFile hm), hm]
  simp [hf]

theorem addRule_openFailed (hm : mergeFile rule = some file) (hf : file ∉ seen)
    (hs : store.lookup file = none) : addRule compile store seen rule rules = .error (.openFailed file) := by
  rw [addRule, if_pos (head_of_mergeFile hm), hm]
  simp only [hf, dite_false]
  split <;> simp_all

theorem addRule_merge (hm : mergeFile rule = some file) (hf : file ∉ seen)
    (hs : store.lookup file = some text) :
    addRule compile store seen rule rules = addRules compile store (file :: seen) (getLines text) rules := by
  rw [addRule, if_pos (head_of_mergeFile hm), hm]
  simp only [hf, dite_false]
  split <;> simp_all

theorem addRule_compile (h : rule.head? ≠ some '.') :
    addRule compile store seen rule rules =
      ((compile rule).mapError .compile).map (rules ++ [·]) := by
  rw [addRule, if_neg h]
  cases compile rule <;> rfl

theorem addRules_skip {line : List Char} {lines : List (List Char)} (h : skipLine line = true) :
    addRules compile store seen (line :: lines) rules = addRules compile store seen lines rules := by
  rw [addRules, if_pos h]

theorem addRules_cons {line : List Char} {lines : List (List Char)} (h : skipLine line = false) :
    addRules compile store seen (line :: lines) rules =
      addRule compile store seen line rules >>= addRules compile store seen lines := by
  rw [addRules, if_neg (by simp [h])]
  cases addRule compile store seen line rules <;> rfl

end Steps

/-! ## The depth-first expansion -/

/-- **The depth-first expansion of rule lines.** Comments and lines of blanks are dropped,
a merge directive is replaced in place by the expansion of the file it names, and any
other line by its compiled rule. A file merged along several paths is expanded each
time. -/
inductive Expands {Rule : Type} (compile : List Char → Except CompileError Rule)
    (store : RuleStore) : List (List Char) → List Rule → Prop
  | nil : Expands compile store [] []
  | skip {line : List Char} {lines : List (List Char)} {rs : List Rule} :
      skipLine line = true → Expands compile store lines rs →
        Expands compile store (line :: lines) rs
  | rule {line : List Char} {lines : List (List Char)} {r : Rule} {rs : List Rule} :
      skipLine line = false → mergeFile line = none → compile line = .ok r →
        Expands compile store lines rs → Expands compile store (line :: lines) (r :: rs)
  | merge {line file text : List Char} {lines : List (List Char)} {rs₁ rs₂ : List Rule} :
      mergeFile line = some file → store.lookup file = some text →
        Expands compile store (getLines text) rs₁ → Expands compile store lines rs₂ →
          Expands compile store (line :: lines) (rs₁ ++ rs₂)

/-- The expansion of one rule given to `add_rule`: its compiled rule, or the expansion of
the file it merges. -/
def ExpandsRule {Rule : Type} (compile : List Char → Except CompileError Rule)
    (store : RuleStore) (rule : List Char) (rs : List Rule) : Prop :=
  (mergeFile rule = none ∧ ∃ r, compile rule = .ok r ∧ rs = [r]) ∨
    ∃ file text, mergeFile rule = some file ∧ store.lookup file = some text ∧
      Expands compile store (getLines text) rs

section Expansion

variable {Rule : Type} {compile : List Char → Except CompileError Rule} {store : RuleStore}

theorem Expands.cons {line : List Char} {lines : List (List Char)}
    {rs₁ rs₂ : List Rule} (h : skipLine line = false) (h₁ : ExpandsRule compile store line rs₁)
    (h₂ : Expands compile store lines rs₂) : Expands compile store (line :: lines) (rs₁ ++ rs₂) := by
  rcases h₁ with ⟨hm, r, hr, rfl⟩ | ⟨file, text, hm, hs, he⟩
  · exact .rule h hm hr h₂
  · exact .merge hm hs he h₂

/-- The expansion is a function of the lines. -/
theorem Expands.unique {lines : List (List Char)} {rs rs' : List Rule}
    (h : Expands compile store lines rs) (h' : Expands compile store lines rs') : rs = rs' := by
  induction h generalizing rs' with
  | nil => cases h'; rfl
  | skip hl _ ih =>
    cases h' with
    | skip _ h' => exact ih h'
    | rule hl' => simp_all
    | merge hm' => simp [skipLine_of_mergeFile hm'] at hl
  | rule hl hm hr _ ih =>
    cases h' with
    | skip hl' => simp_all
    | rule _ _ hr' h' => rw [hr] at hr'; cases hr'; rw [ih h']
    | merge hm' => simp_all
  | merge hm hs _ _ ih₁ ih₂ =>
    cases h' with
    | skip hl' => simp [skipLine_of_mergeFile hm] at hl'
    | rule _ hm' => simp_all
    | merge hm' hs' h₁ h₂ =>
      rw [hm] at hm'; cases hm'; rw [hs] at hs'; cases hs'; rw [ih₁ h₁, ih₂ h₂]

end Expansion

/-! ## The merge graph -/

/-- `lines` holds a merge directive naming `file`. -/
def Names (lines : List (List Char)) (file : List Char) : Prop :=
  ∃ line ∈ lines, mergeFile line = some file

/-- The merge graph of the store: the file `f` holds a merge directive naming `g`. -/
def Merges (store : RuleStore) (f g : List Char) : Prop :=
  ∃ text, store.lookup f = some text ∧ Names (getLines text) g

/-- A file the merge directives of `lines` reach, directly or through merged files. -/
def Reachable (store : RuleStore) (lines : List (List Char)) (g : List Char) : Prop :=
  ∃ f, Names lines f ∧ Relation.ReflTransGen (Merges store) f g

/-- A line `add_rules` may read from `lines`: one of them, or a line of a reachable file. -/
def ReachableLine (store : RuleStore) (lines : List (List Char)) (line : List Char) : Prop :=
  line ∈ lines ∨ ∃ f text, Reachable store lines f ∧ store.lookup f = some text ∧ line ∈ getLines text

/-- Some file reachable from `lines` reaches itself. -/
def MergeCycle (store : RuleStore) (lines : List (List Char)) : Prop :=
  ∃ f, Reachable store lines f ∧ Relation.TransGen (Merges store) f f

section Graph

variable {store : RuleStore} {lines : List (List Char)} {line f g text : List Char}

theorem names_cons : Names (line :: lines) f ↔ mergeFile line = some f ∨ Names lines f := by
  simp [Names]

theorem merges_iff (hs : store.lookup f = some text) : Merges store f g ↔ Names (getLines text) g := by
  simp [Merges, hs]

theorem Reachable.tail (h : Reachable store lines f) (hm : Merges store f g) :
    Reachable store lines g :=
  let ⟨f', hn, hr⟩ := h
  ⟨f', hn, hr.tail hm⟩

theorem reachable_cons :
    Reachable store (line :: lines) g ↔ Reachable store [line] g ∨ Reachable store lines g := by
  simp only [Reachable, names_cons]
  simp [Names, or_and_right, exists_or]

end Graph

/-! ## The include stack -/

/-- The include stack `seen` as `add_rule` builds it, top first: the bottom file is named
by a directive of `start`, each other file by a directive of the file below it. -/
inductive Chain (store : RuleStore) (start : List (List Char)) : List (List Char) → Prop
  | bottom {f : List Char} : Names start f → Chain store start [f]
  | push {f g : List Char} {σ : List (List Char)} :
      Chain store start (f :: σ) → Merges store f g → Chain store start (g :: f :: σ)

/-- Where the lines `add_rules` reads come from: `start` itself on an empty stack, and
otherwise the file on top of the stack. -/
def ReadFrom (store : RuleStore) (start : List (List Char)) :
    List (List Char) → List (List Char) → Prop
  | [], lines => lines ⊆ start
  | f :: σ, lines => Chain store start (f :: σ) ∧
      ∃ text, store.lookup f = some text ∧ lines ⊆ getLines text

section Stack

variable {store : RuleStore} {start seen lines : List (List Char)} {line file text : List Char}

/-- Every file on the stack is reachable from `start`. -/
theorem Chain.reachable {σ : List (List Char)} (h : Chain store start σ) :
    ∀ g ∈ σ, Reachable store start g := by
  induction h with
  | bottom hn => simpa using ⟨_, hn, .refl⟩
  | push _ hm ih =>
    simp only [List.mem_cons, forall_eq_or_imp] at ih ⊢
    exact ⟨ih.1.tail hm, ih.1, ih.2⟩

theorem ReadFrom.mono {lines' : List (List Char)} (h : ReadFrom store start seen lines)
    (hsub : lines' ⊆ lines) : ReadFrom store start seen lines' := by
  match seen, h with
  | [], h => exact fun _ hx => h (hsub hx)
  | _ :: _, ⟨hc, text, hs, hl⟩ => exact ⟨hc, text, hs, fun _ hx => hl (hsub hx)⟩

/-- A line read is reachable, and so is the file it merges. -/
theorem ReadFrom.reachable (h : ReadFrom store start seen lines) (hl : line ∈ lines) :
    ReachableLine store start line ∧ ∀ file, mergeFile line = some file → Reachable store start file := by
  match seen, h with
  | [], h => exact ⟨.inl (h hl), fun file hm => ⟨file, ⟨line, h hl, hm⟩, .refl⟩⟩
  | g :: σ, ⟨hc, text, hs, hsub⟩ =>
    have hg := hc.reachable g (List.mem_cons_self g σ)
    exact ⟨.inr ⟨g, text, hg, hs, hsub hl⟩, fun file hm => hg.tail ⟨text, hs, line, hsub hl, hm⟩⟩

/-- Merging the file a line read names pushes a chain link. -/
theorem ReadFrom.push (h : ReadFrom store start seen lines) (hl : line ∈ lines)
    (hm : mergeFile line = some file) (hs : store.lookup file = some text) :
    ReadFrom store start (file :: seen) (getLines text) := by
  refine ⟨?_, text, hs, List.Subset.refl _⟩
  match seen, h with
  | [], h => exact .bottom ⟨line, h hl, hm⟩
  | _ :: _, ⟨hc, text', hs', hsub⟩ => exact .push hc ⟨text', hs', line, hsub hl, hm⟩

end Stack

/-! ## Runs of `add_rule` and `add_rules` -/

/-- No file reachable from `lines` is on the stack `seen` or reaches itself. -/
def Acyclic (store : RuleStore) (seen lines : List (List Char)) : Prop :=
  ∀ g, Reachable store lines g → g ∉ seen ∧ ¬ Relation.TransGen (Merges store) g g

section Acyclic

variable {store : RuleStore} {seen lines : List (List Char)} {line file text : List Char}

theorem acyclic_cons : Acyclic store seen (line :: lines) ↔
    Acyclic store seen [line] ∧ Acyclic store seen lines := by
  constructor
  · exact fun h => ⟨fun g hg => h g (reachable_cons.mpr (.inl hg)),
      fun g hg => h g (reachable_cons.mpr (.inr hg))⟩
  · exact fun ⟨h₁, h₂⟩ g hg => (reachable_cons.mp hg).elim (h₁ g) (h₂ g)

theorem acyclic_of_mergeFile (h : mergeFile line = none) : Acyclic store seen [line] := by
  rintro g ⟨f, ⟨l, hl, hm⟩, -⟩
  rw [List.mem_singleton.mp hl, h] at hm
  cases hm

/-- A merge that succeeded with `file` on the stack leaves no cycle through `file`. -/
theorem acyclic_merge (hm : mergeFile line = some file) (hf : file ∉ seen)
    (hs : store.lookup file = some text) (h : Acyclic store (file :: seen) (getLines text)) :
    Acyclic store seen [line] := by
  rintro g ⟨f, ⟨l, hl, hl'⟩, hfg⟩
  rw [List.mem_singleton.mp hl, hm] at hl'
  cases hl'
  rcases hfg.cases_head with rfl | ⟨c, hc, hcg⟩
  · refine ⟨hf, fun hcyc => ?_⟩
    obtain ⟨c, hc, hcf⟩ := Relation.TransGen.head'_iff.mp hcyc
    exact (h file ⟨c, (merges_iff hs).mp hc, hcf⟩).1 (List.mem_cons_self file seen)
  · have hg := h g ⟨c, (merges_iff hs).mp hc, hcg⟩
    exact ⟨fun hg' => hg.1 (List.mem_cons_of_mem file hg'), hg.2⟩

/-- The converse: with no cycle through a merge directive, the file it names is off the
stack, and pushing it leaves no cycle through the file's lines. -/
theorem Acyclic.push (hm : mergeFile line = some file) (hs : store.lookup file = some text)
    (h : Acyclic store seen [line]) : file ∉ seen ∧ Acyclic store (file :: seen) (getLines text) := by
  have hr : Reachable store [line] file := ⟨file, ⟨line, List.mem_singleton_self line, hm⟩, .refl⟩
  refine ⟨(h file hr).1, fun g ⟨f, hn, hfg⟩ => ?_⟩
  obtain ⟨hg, hcyc⟩ := h g ⟨file, ⟨line, List.mem_singleton_self line, hm⟩, .head ⟨text, hs, hn⟩ hfg⟩
  refine ⟨fun hg' => (List.mem_cons.mp hg').elim (fun hgf => ?_) hg, hcyc⟩
  subst hgf
  exact (h g hr).2 (.head' ⟨text, hs, hn⟩ hfg)

end Acyclic

/-- **Success.** A call that returns appends the expansion of its lines to the rules, and
no file reachable from its lines is on the stack or reaches itself. -/
theorem addRule_ok {Rule : Type} (compile : List Char → Except CompileError Rule)
    (store : RuleStore) :
    (∀ seen rule rules rules', addRule compile store seen rule rules = .ok rules' →
      (∃ rs, rules' = rules ++ rs ∧ ExpandsRule compile store rule rs) ∧
        Acyclic store seen [rule]) ∧
    (∀ seen lines rules rules', addRules compile store seen lines rules = .ok rules' →
      (∃ rs, rules' = rules ++ rs ∧ Expands compile store lines rs) ∧
        Acyclic store seen lines) := by
  refine ⟨addRule.induct compile store _ _ ?noFile ?recursion ?openFailed ?merge ?ok ?error ?nil
    ?skip ?cons ?consError, addRules.induct compile store _ _ ?noFile ?recursion ?openFailed
    ?merge ?ok ?error ?nil ?skip ?cons ?consError⟩
  case noFile =>
    intro seen rule rules hd hm rules' h
    rw [addRule_noFile hd hm] at h
    cases h
  case recursion =>
    intro seen rule rules _ file hm hf rules' h
    rw [addRule_recursion hm hf] at h
    cases h
  case openFailed =>
    intro seen rule rules _ file hm hf hs rules' h
    rw [addRule_openFailed hm hf hs] at h
    cases h
  case merge =>
    intro seen rule rules _ file hm hf text hs ih rules' h
    rw [addRule_merge hm hf hs] at h
    obtain ⟨⟨rs, rfl, he⟩, hac⟩ := ih rules' h
    exact ⟨⟨rs, rfl, .inr ⟨file, text, hm, hs, he⟩⟩, acyclic_merge hm hf hs hac⟩
  case ok =>
    intro seen rule rules hd r hr rules' h
    rw [addRule_compile hd, hr] at h
    cases h
    exact ⟨⟨[r], rfl, .inl ⟨mergeFile_of_head hd, r, hr, rfl⟩⟩, acyclic_of_mergeFile (mergeFile_of_head hd)⟩
  case error =>
    intro seen rule rules hd e he rules' h
    rw [addRule_compile hd, he] at h
    cases h
  case nil =>
    intro seen rules rules' h
    rw [addRules] at h
    cases h
    exact ⟨⟨[], by simp, .nil⟩, fun g ⟨f, ⟨l, hl, _⟩, _⟩ => absurd hl (List.not_mem_nil l)⟩
  case skip =>
    intro seen rules line lines hs ih rules' h
    rw [addRules_skip hs] at h
    obtain ⟨⟨rs, rfl, he⟩, hac⟩ := ih rules' h
    exact ⟨⟨rs, rfl, .skip hs he⟩, acyclic_cons.mpr ⟨acyclic_of_mergeFile (mergeFile_of_skipLine hs), hac⟩⟩
  case cons =>
    intro seen rules line lines hs rules₁ h₁ ih₁ ih₂ rules' h
    rw [Bool.not_eq_true] at hs
    rw [addRules_cons hs, h₁] at h
    obtain ⟨⟨rs₁, rfl, he₁⟩, hac₁⟩ := ih₁ _ h₁
    obtain ⟨⟨rs₂, rfl, he₂⟩, hac₂⟩ := ih₂ rules' h
    exact ⟨⟨rs₁ ++ rs₂, by simp, .cons hs he₁ he₂⟩, acyclic_cons.mpr ⟨hac₁, hac₂⟩⟩
  case consError =>
    intro seen rules line lines hs e h₁ _ rules' h
    rw [addRules_cons (by simpa using hs), h₁] at h
    cases h

/-- **A call that returns.** Whatever the store holds, a call of `add_rules` that returns
has appended the depth-first expansion of its lines, and no file reachable from them
reaches itself. -/
theorem addRules_sound {Rule : Type} {compile : List Char → Except CompileError Rule}
    {store : RuleStore} {lines : List (List Char)} {rules rules' : List Rule}
    (h : addRules compile store [] lines rules = .ok rules') :
    ∃ rs, rules' = rules ++ rs ∧ Expands compile store lines rs ∧ ¬ MergeCycle store lines := by
  obtain ⟨⟨rs, rfl, he⟩, hac⟩ := (addRule_ok compile store).2 [] lines rules rules' h
  exact ⟨rs, rfl, he, fun ⟨f, hf, hcyc⟩ => (hac f hf).2 hcyc⟩

/-- The one rule `+x` with an empty store. -/
theorem addRules_sound_rule :
    ∃ rules', addRules compileFilterRule [] [] ["+x".toList] [] = .ok rules' ∧
      ∃ rs, rules' = [] ++ rs ∧ Expands compileFilterRule [] ["+x".toList] rs ∧
        ¬ MergeCycle [] ["+x".toList] := by
  obtain ⟨r, hr⟩ : ∃ r, compileFilterRule "+x".toList = .ok r := ⟨_, rfl⟩
  have h : addRules compileFilterRule [] [] ["+x".toList] [] = .ok [r] := by
    rw [addRules_cons (show skipLine "+x".toList = false from rfl), addRule_compile (by decide), hr]
    show addRules compileFilterRule [] [] [] ([] ++ [r]) = _
    rw [addRules]
    rfl
  exact ⟨_, h, addRules_sound h⟩

end Dwarfs.Filter
