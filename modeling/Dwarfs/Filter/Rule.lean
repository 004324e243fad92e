/-
# `compile_filter_rule`: from a glob rule to a filter rule

`rule_based_entry_filter_::compile_filter_rule` (src/src/writer/rule_based_entry_filter.cpp,
lines 90–180) reads a rule through the pointer `p` into `rule.c_str()`: the first byte is
the rule type, spaces are skipped, a pattern that does not start with `/` is made
floating with the prefix `.*/`, and the loop `while (*p)` translates the rest of the glob
into the regex text `re`, which `std::regex` then compiles.

The model keeps the pointer as the suffix of `rule.c_str()` that starts at `p`. Its head
is `*p`, the terminating NUL is its last character, and the empty suffix is a pointer past
that NUL, where `*p` reads outside the string (`CompileError.outOfBounds`). The source's
`std::string_view` may hold NUL bytes; `c_str()` ends the scan at the first one that is
not escaped, as the model does.

The escape branch tests `if (p)`, the pointer, where the end of the string is `*p`: a
rule whose last byte is an unpaired `\` appends the terminating NUL and moves `p` past it
(`compileFilterRule_trailing_backslash`). A rule that does not end in `\` never reads past
its NUL (`compileFilterRule_ne_outOfBounds`).
-/
import Dwarfs.Filter.Regex

namespace Dwarfs.Filter

open Regex

/-- `filter_rule::rule_type`. -/
inductive RuleType
  | include
  | exclude
  deriving DecidableEq, Repr

/-- `filter_rule`: its type, whether it is floating, and the compiled regex. The source
also keeps the rule text, which only the trace log reads. -/
structure FilterRule where
  type : RuleType
  floating : Bool
  re : List Term
  deriving DecidableEq, Repr

/-- What `compile_filter_rule` can end in besides a rule: a `std::runtime_error`, the
`std::regex_error` of the regex constructor, or a read of `*p` past the NUL. -/
inductive CompileError
  | runtime (what : String)
  | regex (e : RegexError)
  | outOfBounds
  deriving DecidableEq, Repr

/-- The bytes the default branch escapes with `\`. -/
def metaChars : List Char := ".+^$(){}|".toList

/-- The regex text of a single `*`: `[^/]+` when the regex so far ends with `/` and the
next byte is `/` or the end, `[^/]*` otherwise. -/
def singleStar (re p : List Char) : List Char :=
  if re.getLast? = some '/' ∧ (p.head? = some '/' ∨ p.head? = some '\x00')
  then "[^/]+".toList else "[^/]*".toList

/-- The loop `while (*p)` of `compile_filter_rule`, from the suffix `p` of `rule.c_str()`
on, appending to `re`. The three star cases are the `switch (nstar)` on the length of the
run `while (*++p == '*') ++nstar` counts. -/
def compileLoop : List Char → List Char → Except CompileError (List Char)
  | [], _ => .error .outOfBounds
  | '\x00' :: _, re => .ok re
  | '\\' :: p, re =>
    match p with
    | [] => .error .outOfBounds
    | c :: p => compileLoop p (re ++ ['\\', c])
  | '*' :: '*' :: '*' :: _, _ => .error (.runtime "too many *s")
  | '*' :: '*' :: p, re => compileLoop p (re ++ ".*".toList)
  | '*' :: p, re => compileLoop p (re ++ singleStar re p)
  | '?' :: p, re => compileLoop p (re ++ "[^/]".toList)
  | c :: p, re => compileLoop p (re ++ if c ∈ metaChars then ['\\', c] else [c])

/-- `compile_filter_rule` after the type byte: skip the spaces, decide whether the
pattern floats, translate it and compile the regex. -/
def compilePattern (type : RuleType) (p : List Char) : Except CompileError FilterRule := do
  let p := p.dropWhile (· == ' ')
  let floating := p.headD '\x00' != '\x00' && p.headD '\x00' != '/'
  let re ← compileLoop p (if floating then ".*/".toList else [])
  let ts ← (parse re).mapError .regex
  pure { type, floating, re := ts }

/-- `rule_based_entry_filter_::compile_filter_rule`. -/
def compileFilterRule (rule : List Char) : Except CompileError FilterRule :=
  match rule ++ ['\x00'] with
  | '+' :: p => compilePattern .include p
  | '-' :: p => compilePattern .exclude p
  | _ => .error (.runtime "rules must start with + or -")

/-! ## Where the cursor can go -/

/-- Past the rule type, the suffix of `c_str()` is the rest of the rule and its NUL. -/
theorem compileFilterRule_cons (c : Char) (rest : List Char) :
    compileFilterRule (c :: rest) =
      if c = '+' then compilePattern .include (rest ++ ['\x00'])
      else if c = '-' then compilePattern .exclude (rest ++ ['\x00'])
      else .error (.runtime "rules must start with + or -") := by
  simp only [compileFilterRule, List.cons_append]
  split <;> simp_all

/-- The suffix after a head `x` that is not the terminating NUL is again a rest of the
rule and its NUL. -/
theorem eq_cons_of_cons_eq_append_nul {x : Char} {p s : List Char} (hx : x ≠ '\x00' ∨ p ≠ [])
    (h : x :: p = s ++ ['\x00']) : ∃ s', s = x :: s' ∧ p = s' ++ ['\x00'] := by
  match s, h with
  | [], h => simp at h; exact hx.elim (absurd h.1) (absurd h.2)
  | y :: s', h => simp only [List.cons_append, List.cons.injEq] at h; exact ⟨s', by rw [h.1], h.2⟩

/-- A tail of a list that does not end in `\` does not end in `\` either. -/
theorem getLast?_ne_of_cons {x : Char} {s : List Char} (h : (x :: s).getLast? ≠ some '\\') :
    s.getLast? ≠ some '\\' := by
  cases s with
  | nil => simp
  | cons y s => simpa [List.getLast?_cons] using h

/-- Past a head that is not the terminating NUL, the cursor is on a rest of the rule and
its NUL again, and that rest does not end in `\` when the rule did not. -/
theorem tail_append_nul {x : Char} {p s : List Char} (hx : x ≠ '\x00' ∨ p ≠ [])
    (h : x :: p = s ++ ['\x00']) (hs : s.getLast? ≠ some '\\') :
    ∃ s', p = s' ++ ['\x00'] ∧ s'.getLast? ≠ some '\\' := by
  obtain ⟨s', rfl, h'⟩ := eq_cons_of_cons_eq_append_nul hx h
  exact ⟨s', h', getLast?_ne_of_cons hs⟩

/-- **No read past the NUL.** The scan of a rest of the rule that does not end in `\`
never dereferences the pointer past the terminating NUL. -/
theorem compileLoop_ne_outOfBounds (p re : List Char) :
    ∀ s, p = s ++ ['\x00'] → s.getLast? ≠ some '\\' → compileLoop p re ≠ .error .outOfBounds := by
  induction p, re using compileLoop.induct with
  | case1 => intro s h; simp at h
  | case2 => intro _ _ _; simp [compileLoop]
  | case3 re =>
    intro s h hs
    obtain ⟨s', rfl, h'⟩ := eq_cons_of_cons_eq_append_nul (.inl (by decide)) h
    simp at h'
  | case4 re c p ih =>
    intro s h hs
    obtain ⟨s', rfl, h'⟩ := eq_cons_of_cons_eq_append_nul (.inl (by decide)) h
    cases p with
    | nil =>
      obtain rfl : s' = [] := by
        cases s' with
        | nil => rfl
        | cons _ _ => simp at h'
      exact absurd (by simp) hs
    | cons d p =>
      obtain ⟨s'', rfl, h''⟩ := eq_cons_of_cons_eq_append_nul (.inr (List.cons_ne_nil d p)) h'
      rw [compileLoop]
      exact ih s'' h'' (getLast?_ne_of_cons (getLast?_ne_of_cons hs))
  | case5 => intro _ _ _; simp [compileLoop]
  | case6 re p hp ih =>
    intro s h hs
    obtain ⟨s', h', hs'⟩ := tail_append_nul (.inl (by decide)) h hs
    obtain ⟨s'', h'', hs''⟩ := tail_append_nul (.inl (by decide)) h' hs'
    rw [compileLoop.eq_6 _ _ hp]
    exact ih s'' h'' hs''
  | case7 re p hp hp' ih =>
    intro s h hs
    obtain ⟨s', h', hs'⟩ := tail_append_nul (.inl (by decide)) h hs
    rw [compileLoop.eq_7 _ _ hp hp']
    exact ih s' h' hs'
  | case8 re p ih =>
    intro s h hs
    obtain ⟨s', h', hs'⟩ := tail_append_nul (.inl (by decide)) h hs
    rw [compileLoop.eq_8]
    exact ih s' h' hs'
  | case9 re c p h0 h1 h2 h3 h4 h5 ih =>
    intro s h hs
    obtain ⟨s', h', hs'⟩ := tail_append_nul (.inl h0) h hs
    rw [compileLoop.eq_9 _ _ _ h0 h1 h2 h3 h4 h5]
    exact ih s' h' hs'

/-- Dropping leading bytes keeps a list from ending in `\`. -/
theorem getLast?_dropWhile_ne (q : Char → Bool) {l : List Char} (h : l.getLast? ≠ some '\\') :
    (l.dropWhile q).getLast? ≠ some '\\' := by
  induction l with
  | nil => simp
  | cons a l ih =>
    rw [List.dropWhile_cons]
    split
    · exact ih (getLast?_ne_of_cons h)
    · exact h

/-- Skipping the spaces before the pattern stops at the NUL at the latest. -/
theorem dropWhile_space_append_nul (l : List Char) :
    (l ++ ['\x00']).dropWhile (· == ' ') = l.dropWhile (· == ' ') ++ ['\x00'] := by
  induction l with
  | nil => simp [List.dropWhile]
  | cons a l ih => by_cases ha : a = ' ' <;> simp [List.dropWhile_cons, ha, ih]

/-- **Compiling a rule that does not end in `\` never reads past its NUL.** -/
theorem compileFilterRule_ne_outOfBounds (rule : List Char) (h : rule.getLast? ≠ some '\\') :
    compileFilterRule rule ≠ .error .outOfBounds := by
  have hpat : ∀ t rest, rest.getLast? ≠ some '\\' →
      compilePattern t (rest ++ ['\x00']) ≠ .error .outOfBounds := by
    intro t rest hr
    have hloop := fun re => compileLoop_ne_outOfBounds _ re _ rfl (getLast?_dropWhile_ne (· == ' ') hr)
    simp only [compilePattern, dropWhile_space_append_nul, ne_eq, bind_eq_error, mapError_eq_error]
    rintro (h | ⟨re, -, ⟨e, -, ⟨⟩⟩ | ⟨ts, -, h⟩⟩)
    · exact hloop _ h
    · exact pure_ne_error h
  cases rule with
  | nil => simp [compileFilterRule]
  | cons c rest =>
    rw [compileFilterRule_cons]
    have hr := getLast?_ne_of_cons h
    split_ifs
    · exact hpat _ _ hr
    · exact hpat _ _ hr
    · simp

/-- The rule `-*.o` does not end in `\` and stays inside its string. -/
theorem compileFilterRule_ne_outOfBounds_object :
    "-*.o".toList.getLast? ≠ some '\\' ∧ compileFilterRule "-*.o".toList ≠ .error .outOfBounds :=
  ⟨by decide, compileFilterRule_ne_outOfBounds _ (by decide)⟩

/-- **The trailing backslash reads past the NUL.** The escape branch appends the
backslash, then, since `if (p)` tests the pointer, appends the terminating NUL and moves
`p` past it; the loop condition then dereferences position `rule.size() + 1`. -/
theorem compileFilterRule_trailing_backslash :
    compileFilterRule ['+', '\\'] = .error .outOfBounds := rfl

end Dwarfs.Filter
