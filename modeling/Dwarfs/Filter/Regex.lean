/-
# The ECMAScript regular expressions of `std::regex`

`rule_based_entry_filter_::compile_filter_rule`
(src/src/writer/rule_based_entry_filter.cpp) turns a glob into the text of a regular
expression and keeps `std::regex{re}`; `filter` then decides each entry with
`std::regex_match`. The grammar of a default-constructed `std::regex` is ECMAScript, as
the C++ standard amends it: every character but `c` may follow `\` as an identity escape.

This module is the part of that grammar the translation emits:

* `scan` turns the text into tokens (an atom, a quantifier `*`, `+`, `?`, or a
  word-boundary assertion), as the library's scanner does, and `assemble` attaches each
  quantifier to the atom before it; `parse` is the constructor.
* `matchFrom ts prev s` says the terms `ts` match all of `s` when the character before
  `s` is `prev`: full matching, the question `std::regex_match` answers. An atom under a
  quantifier consumes any admissible number of characters. Backtracking makes the
  greedy and the lazy forms accept the same full matches, so the model does not tell
  them apart.

The translation passes a rule's own `[`, `]`, `{`, `}`, `(`, `)`, `|`, `^`, `$` and escapes
through unchanged, so the code compiles bracket expressions, groups, alternatives,
anchors, intervals and the escapes `\c`, `\x`, `\u` of user patterns. This module leaves
them out: outside the fragment `parse` gives `RegexError.unmodelled`. What is proved of
the translation is therefore proved of rules in the fragment, and the results on
`add_rules`, merge directives and the object hold for any rule compiler
(`Dwarfs.Filter.ChecksSign`), whatever `std::regex` accepts.
-/
import Dwarfs.Except
import Mathlib.Data.List.Basic

namespace Dwarfs

namespace Regex

/-- The errors of the regex constructor (`std::regex_constants::error_type`) that the
fragment can raise, and `unmodelled` for syntax outside it. -/
inductive RegexError
  | escape
  | backref
  | badRepeat
  | unmodelled
  deriving DecidableEq, Repr

/-- The test an atom makes of one character. -/
inductive CharClass
  /-- A pattern character, or an escape that stands for one character. -/
  | lit (c : Char)
  /-- `.`: every character but a line terminator. -/
  | dot
  /-- The bracket `[^/]`. -/
  | notSlash
  /-- A class escape `\d`, `\D`, `\s`, `\S`, `\w` or `\W`, by its letter. -/
  | classEscape (k : Char)
  deriving DecidableEq, Repr

/-- The ECMAScript line terminators that are single bytes. -/
def isLineTerminator (c : Char) : Bool := c == '\n' || c == '\r'

/-- `\s` in the C locale (`isspace`). -/
def isSpaceChar (c : Char) : Bool :=
  c == ' ' || c == '\t' || c == '\n' || c == '\x0b' || c == '\x0c' || c == '\r'

/-- `\w`: letters, digits and `_`. -/
def isWordChar (c : Char) : Bool := c.isAlphanum || c == '_'

/-- Whether the atom accepts the character `x`. -/
def CharClass.test : CharClass → Char → Bool
  | .lit c, x => x == c
  | .dot, x => !isLineTerminator x
  | .notSlash, x => x != '/'
  | .classEscape k, x =>
    match k with
    | 'd' => x.isDigit
    | 'D' => !x.isDigit
    | 's' => isSpaceChar x
    | 'S' => !isSpaceChar x
    | 'w' => isWordChar x
    | 'W' => !isWordChar x
    | _ => false

@[simp] theorem test_lit (c x : Char) : (CharClass.lit c).test x = true ↔ x = c := by
  simp [CharClass.test]

@[simp] theorem test_dot (x : Char) :
    CharClass.dot.test x = true ↔ x ≠ '\n' ∧ x ≠ '\r' := by
  simp [CharClass.test, isLineTerminator]

@[simp] theorem test_notSlash (x : Char) : CharClass.notSlash.test x = true ↔ x ≠ '/' := by
  simp [CharClass.test]

/-- The quantifiers: none, `*`, `+` and `?`. -/
inductive Quant
  | one
  | star
  | plus
  | opt
  deriving DecidableEq, Repr

/-- How many characters an atom under the quantifier may consume. -/
def Quant.admits : Quant → Nat → Bool
  | .one, k => k == 1
  | .star, _ => true
  | .plus, k => 0 < k
  | .opt, k => k ≤ 1

/-- What the scanner hands to the assembler. -/
inductive Token
  | atom (cls : CharClass)
  | quant (q : Quant)
  | wordBound (negated : Bool)
  deriving DecidableEq, Repr

/-- A term of the compiled expression: a quantified atom or an assertion. -/
inductive Term
  | atom (cls : CharClass) (q : Quant)
  | wordBound (negated : Bool)
  deriving DecidableEq, Repr

/-! ## The constructor -/

/-- The token of the escape `\c`. Letters and digits with a meaning of their own are
classes, controls, assertions or back-references; every other character stands for
itself. -/
def escapeToken (c : Char) : Except RegexError Token :=
  match c with
  | 'b' => .ok (.wordBound false)
  | 'B' => .ok (.wordBound true)
  | 'd' | 'D' | 's' | 'S' | 'w' | 'W' => .ok (.atom (.classEscape c))
  | 'f' => .ok (.atom (.lit '\x0c'))
  | 'n' => .ok (.atom (.lit '\n'))
  | 'r' => .ok (.atom (.lit '\r'))
  | 't' => .ok (.atom (.lit '\t'))
  | 'v' => .ok (.atom (.lit '\x0b'))
  | '0' => .ok (.atom (.lit '\x00'))
  | 'c' | 'x' | 'u' => .error .unmodelled
  | _ => if c.isDigit then .error .backref else .ok (.atom (.lit c))

/-- The characters after `\` that do not stand for themselves. -/
def isEcmaEscape (c : Char) : Bool := c ∈ "bBcdDfnrsStuvwWx".toList || c.isDigit

/-- The token of a character outside an escape or a bracket. -/
def charToken (c : Char) : Except RegexError Token :=
  match c with
  | '.' => .ok (.atom .dot)
  | '*' => .ok (.quant .star)
  | '+' => .ok (.quant .plus)
  | '?' => .ok (.quant .opt)
  | '^' | '$' | '\\' | '(' | ')' | '[' | ']' | '{' | '}' | '|' => .error .unmodelled
  | _ => .ok (.atom (.lit c))

/-- The syntax characters of ECMAScript, which `charToken` does not take literally. -/
def isSyntaxChar (c : Char) : Bool := c ∈ "^$\\.*+?()[]{}|".toList

/-- The scanner of the regex constructor. -/
def scan : List Char → Except RegexError (List Token)
  | [] => .ok []
  | ['\\'] => .error .escape
  | '\\' :: c :: r => do
    let t ← escapeToken c
    let ts ← scan r
    pure (t :: ts)
  | '[' :: '^' :: '/' :: ']' :: r => do
    let ts ← scan r
    pure (.atom .notSlash :: ts)
  | c :: r => do
    let t ← charToken c
    let ts ← scan r
    pure (t :: ts)

/-- The assembler: each quantifier, with its lazy mark `?`, goes to the atom before it. -/
def assemble : List Token → Except RegexError (List Term)
  | [] => .ok []
  | .atom a :: .quant q :: .quant .opt :: ts => do
    let rest ← assemble ts
    pure (.atom a q :: rest)
  | .atom a :: .quant q :: ts => do
    let rest ← assemble ts
    pure (.atom a q :: rest)
  | .atom a :: ts => do
    let rest ← assemble ts
    pure (.atom a .one :: rest)
  | .quant _ :: _ => .error .badRepeat
  | .wordBound n :: ts => do
    let rest ← assemble ts
    pure (.wordBound n :: rest)

/-- `std::regex{re}`: the compiled terms, or the `regex_error` the constructor throws. -/
def parse (re : List Char) : Except RegexError (List Term) := scan re >>= assemble

/-- A character that is not a syntax character scans to itself. -/
theorem charToken_lit {c : Char} (h : isSyntaxChar c = false) :
    charToken c = .ok (.atom (.lit c)) := by
  unfold charToken
  split <;> simp_all [isSyntaxChar]

/-- An escape of a character that is no ECMAScript escape stands for that character. -/
theorem escapeToken_lit {c : Char} (h : isEcmaEscape c = false) :
    escapeToken c = .ok (.atom (.lit c)) := by
  unfold escapeToken
  split <;> simp_all [isEcmaEscape]

theorem scan_escape {c : Char} {t : Token} {r : List Char} {toks : List Token}
    (ht : escapeToken c = .ok t) (hr : scan r = .ok toks) :
    scan ('\\' :: c :: r) = .ok (t :: toks) := by
  simp [scan, ht, hr, bind, Except.bind, pure, Except.pure]

theorem scan_notSlash {r : List Char} {toks : List Token} (hr : scan r = .ok toks) :
    scan ('[' :: '^' :: '/' :: ']' :: r) = .ok (.atom .notSlash :: toks) := by
  simp [scan, hr, bind, Except.bind, pure, Except.pure]

theorem scan_char {c : Char} {t : Token} {r : List Char} {toks : List Token} (h1 : c ≠ '\\')
    (h2 : c ≠ '[') (ht : charToken c = .ok t) (hr : scan r = .ok toks) :
    scan (c :: r) = .ok (t :: toks) := by
  rw [scan.eq_5]
  · simp [ht, hr, bind, Except.bind, pure, Except.pure]
  all_goals simp_all

/-- Tokens that do not start with a quantifier: nothing before them can take one. -/
def StartsAtom (toks : List Token) : Prop := ∀ q, toks.head? ≠ some (.quant q)

theorem assemble_quant {a : CharClass} {q : Quant} {toks : List Token} {ts : List Term}
    (hs : StartsAtom toks) (h : assemble toks = .ok ts) :
    assemble (.atom a :: .quant q :: toks) = .ok (.atom a q :: ts) := by
  rw [assemble.eq_3]
  · simp [h, bind, Except.bind, pure, Except.pure]
  · rintro ts rfl; exact hs _ rfl

theorem assemble_one {a : CharClass} {toks : List Token} {ts : List Term}
    (hs : StartsAtom toks) (h : assemble toks = .ok ts) :
    assemble (.atom a :: toks) = .ok (.atom a .one :: ts) := by
  rw [assemble.eq_4]
  · simp [h, bind, Except.bind, pure, Except.pure]
  all_goals rintro q ts rfl; exact hs _ rfl

/-! ## Matching -/

/-- The character before the rest of the input once `u` is consumed after `prev`. -/
def lastAfter (prev : Option Char) (u : List Char) : Option Char := u.getLast?.or prev

/-- `\b` holds where exactly one side is a word character. -/
def wordBoundary (prev next : Option Char) : Bool :=
  (prev.map isWordChar).getD false != (next.map isWordChar).getD false

/-- The terms match all of `s`, the character before `s` being `prev`. -/
def matchFrom : List Term → Option Char → List Char → Bool
  | [], _, s => s.isEmpty
  | .wordBound neg :: ts, prev, s => (wordBoundary prev s.head? != neg) && matchFrom ts prev s
  | .atom cls q :: ts, prev, s =>
    (List.range (s.length + 1)).any fun k =>
      q.admits k && (s.take k).all cls.test && matchFrom ts (lastAfter prev (s.take k)) (s.drop k)

/-- `std::regex_match(s, re)`. -/
def regexMatch (ts : List Term) (s : List Char) : Bool := matchFrom ts none s

@[simp] theorem matchFrom_nil (prev : Option Char) (s : List Char) :
    matchFrom [] prev s = true ↔ s = [] := by
  simp [matchFrom]

/-- An atom consumes a prefix `u` its quantifier admits and its class accepts. -/
theorem matchFrom_atom (cls : CharClass) (q : Quant) (ts : List Term) (prev : Option Char)
    (s : List Char) :
    matchFrom (.atom cls q :: ts) prev s = true ↔
      ∃ u v, s = u ++ v ∧ q.admits u.length ∧ (∀ x ∈ u, cls.test x) ∧
        matchFrom ts (lastAfter prev u) v = true := by
  simp only [matchFrom, List.any_eq_true, List.mem_range, Bool.and_eq_true, List.all_eq_true]
  constructor
  · rintro ⟨k, hk, ⟨⟨hq, hu⟩, hv⟩⟩
    refine ⟨s.take k, s.drop k, (List.take_append_drop k s).symm, ?_, hu, hv⟩
    rwa [List.length_take, Nat.min_eq_left (by omega)]
  · rintro ⟨u, v, rfl, hq, hu, hv⟩
    refine ⟨u.length, by simp; omega, ⟨?_, ?_⟩, ?_⟩ <;> simpa

/-- A single atom consumes exactly one character. -/
theorem matchFrom_one (cls : CharClass) (ts : List Term) (prev : Option Char) (s : List Char) :
    matchFrom (.atom cls .one :: ts) prev s = true ↔
      ∃ x v, s = x :: v ∧ cls.test x ∧ matchFrom ts (some x) v = true := by
  rw [matchFrom_atom]
  constructor
  · rintro ⟨u, v, rfl, hq, hu, hv⟩
    match u, hq with
    | [x], _ => exact ⟨x, v, rfl, hu x (by simp), hv⟩
  · rintro ⟨x, v, rfl, hx, hv⟩
    exact ⟨[x], v, rfl, rfl, by simpa using hx, hv⟩

/-- A starred atom consumes any run of characters its class accepts. -/
theorem matchFrom_star (cls : CharClass) (ts : List Term) (prev : Option Char) (s : List Char) :
    matchFrom (.atom cls .star :: ts) prev s = true ↔
      ∃ u v, s = u ++ v ∧ (∀ x ∈ u, cls.test x) ∧ matchFrom ts (lastAfter prev u) v = true := by
  simp [matchFrom_atom, Quant.admits]

/-- An atom under `+` consumes a non-empty run of characters its class accepts. -/
theorem matchFrom_plus (cls : CharClass) (ts : List Term) (prev : Option Char) (s : List Char) :
    matchFrom (.atom cls .plus :: ts) prev s = true ↔
      ∃ u v, s = u ++ v ∧ u ≠ [] ∧ (∀ x ∈ u, cls.test x) ∧
        matchFrom ts (lastAfter prev u) v = true := by
  simp [matchFrom_atom, Quant.admits, List.length_pos]

end Regex

end Dwarfs
