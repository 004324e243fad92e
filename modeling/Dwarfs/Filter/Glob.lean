/-
# The glob language of a filter rule, and what the translation makes of it

The filter documentation gives the patterns of `+pattern` and `-pattern` rules a glob
meaning: `*` spans a run of bytes other than `/`, `**` any bytes, `?` one byte other than
`/`, `\x` the byte `x`; a pattern that does not start with `/` floats, preceded by
`.*/`. `GlobMatch` is that language, read byte by byte as the rule's description has it;
the bytes `**` and the floating prefix may span are a parameter `span`.

`compileFilterRule_glob` is the correctness of `compile_filter_rule`
(src/src/writer/rule_based_entry_filter.cpp) against it: for every pattern with paired
escapes, no NUL, `[`, `]` and no run of three `*`, the compiled regex fully matches
exactly the strings of `GlobAccepts notLineTerminator`. Three things separate this from
the plain description (`compileFilterRule_glob_counterexample`):

* ECMAScript's `.` does not match `\n` or `\r`, so neither `**` (`.*`) nor the floating
  prefix `.*/` spans them;
* an escape is passed through to the regex, where `\d`, `\n`, `\b` and the other
  ECMAScript escapes keep their own meaning (`ecmaSafe` excludes them);
* the spaces after the rule type are all skipped, so a pattern starting with a space
  loses it.

The proof follows the loop of `compileLoop`: each step appends the regex text of one glob
construct, which scans to one atom and its quantifier (`Denotes.cons`), and whose
matching is the glob construct's (`globMatch_*` inversion lemmas).
-/
import Dwarfs.Filter.Rule

namespace Dwarfs.Filter

open Regex

/-! ## The glob language -/

/-- Every byte: what `**` spans in the filter documentation. -/
def anyByte : Char → Prop := fun _ => True

/-- The bytes ECMAScript's `.` matches. -/
def notLineTerminator (c : Char) : Prop := c ≠ '\n' ∧ c ≠ '\r'

/-- **The glob language of a pattern.** `GlobMatch span slash P s` says the pattern `P`
matches all of `s`, where `slash` says the pattern byte before `P` is a `/` (or `P` is
all of a floating pattern), and `span` the bytes `**` may span. -/
inductive GlobMatch (span : Char → Prop) : Bool → List Char → List Char → Prop
  | nil (slash : Bool) : GlobMatch span slash [] []
  /-- `\x` matches the byte `x`. -/
  | escape {slash : Bool} {P s : List Char} (c : Char) :
      GlobMatch span (c == '/') P s → GlobMatch span slash ('\\' :: c :: P) (c :: s)
  /-- `?` matches one byte other than `/`. -/
  | qmark {slash : Bool} {P s : List Char} {c : Char} :
      c ≠ '/' → GlobMatch span false P s → GlobMatch span slash ('?' :: P) (c :: s)
  /-- `**` matches a run of bytes `span` allows. -/
  | doubleStar {slash : Bool} {P s u : List Char} :
      P.head? ≠ some '*' → (∀ x ∈ u, span x) → GlobMatch span false P s →
        GlobMatch span slash ('*' :: '*' :: P) (u ++ s)
  /-- A single `*` matches a run of bytes other than `/`, a non-empty one when it follows
  a `/` and precedes a `/` or the end. -/
  | star {slash : Bool} {P s u : List Char} :
      P.head? ≠ some '*' → (∀ x ∈ u, x ≠ '/') →
        (slash = true → (P = [] ∨ P.head? = some '/') → u ≠ []) →
        GlobMatch span false P s → GlobMatch span slash ('*' :: P) (u ++ s)
  /-- Every other byte matches itself. -/
  | byte {slash : Bool} {P s : List Char} {c : Char} :
      c ≠ '\\' → c ≠ '*' → c ≠ '?' → GlobMatch span (c == '/') P s →
        GlobMatch span slash (c :: P) (c :: s)

/-- A pattern floats when it is not empty and does not start with `/`. -/
def floatingPattern (P : List Char) : Bool := P.headD '/' != '/'

/-- The paths a rule's pattern accepts: after any prefix ending in `/` when it floats,
all of the path when it is anchored. -/
def GlobAccepts (span : Char → Prop) (P s : List Char) : Prop :=
  if floatingPattern P then
    ∃ u v, s = u ++ '/' :: v ∧ (∀ x ∈ u, span x) ∧ GlobMatch span true P v
  else GlobMatch span false P s

/-- A byte a glob pattern may hold: no NUL, `[` or `]`. -/
def plainByte (c : Char) : Bool := c != '\x00' && c != '[' && c != ']'

/-- The patterns the translation is meant for: bytes other than NUL, `[` and `]`, every
`\` paired with the byte after it, and no run of three unescaped `*`. -/
def globPattern : List Char → Bool
  | [] => true
  | ['\\'] => false
  | '\\' :: c :: P => plainByte c && globPattern P
  | '*' :: '*' :: '*' :: _ => false
  | '*' :: '*' :: P => globPattern P
  | c :: P => plainByte c && globPattern P

/-- No escape of a letter or digit to which ECMAScript gives a meaning of its own. -/
def ecmaSafe : List Char → Bool
  | '\\' :: c :: P => !isEcmaEscape c && ecmaSafe P
  | _ :: P => ecmaSafe P
  | [] => true

/-- The pattern holds a run of three or more unescaped `*`. -/
def starRun3 : List Char → Bool
  | '\\' :: _ :: P => starRun3 P
  | '*' :: '*' :: '*' :: _ => true
  | '*' :: '*' :: P => starRun3 P
  | _ :: P => starRun3 P
  | [] => false

/-! ## Inverting the glob language, one construct at a time -/

section Inversion

variable {span : Char → Prop} {slash : Bool} {P s : List Char}

theorem globMatch_nil_iff : GlobMatch span slash [] s ↔ s = [] := by
  constructor
  · rintro ⟨⟩; rfl
  · rintro rfl; exact .nil slash

theorem globMatch_escape_iff {c : Char} :
    GlobMatch span slash ('\\' :: c :: P) s ↔ ∃ v, s = c :: v ∧ GlobMatch span (c == '/') P v := by
  constructor
  · intro h
    cases h with
    | escape _ h => exact ⟨_, rfl, h⟩
    | byte h1 _ _ _ => exact absurd rfl h1
  · rintro ⟨v, rfl, h⟩; exact .escape c h

theorem globMatch_qmark_iff :
    GlobMatch span slash ('?' :: P) s ↔ ∃ c v, s = c :: v ∧ c ≠ '/' ∧ GlobMatch span false P v := by
  constructor
  · intro h
    cases h with
    | qmark hc h => exact ⟨_, _, rfl, hc, h⟩
    | byte _ _ h3 _ => exact absurd rfl h3
  · rintro ⟨c, v, rfl, hc, h⟩; exact .qmark hc h

theorem globMatch_doubleStar_iff (hP : P.head? ≠ some '*') :
    GlobMatch span slash ('*' :: '*' :: P) s ↔
      ∃ u v, s = u ++ v ∧ (∀ x ∈ u, span x) ∧ GlobMatch span false P v := by
  constructor
  · intro h
    cases h with
    | doubleStar _ hu h => exact ⟨_, _, rfl, hu, h⟩
    | star h _ _ _ => exact absurd rfl h
    | byte _ h2 _ _ => exact absurd rfl h2
  · rintro ⟨u, v, rfl, hu, h⟩; exact .doubleStar hP hu h

theorem globMatch_star_iff (hP : P.head? ≠ some '*') :
    GlobMatch span slash ('*' :: P) s ↔
      ∃ u v, s = u ++ v ∧ (∀ x ∈ u, x ≠ '/') ∧
        (slash = true → (P = [] ∨ P.head? = some '/') → u ≠ []) ∧ GlobMatch span false P v := by
  constructor
  · intro h
    cases h with
    | doubleStar => exact absurd rfl hP
    | star _ hu hne h => exact ⟨_, _, rfl, hu, hne, h⟩
    | byte _ h2 _ _ => exact absurd rfl h2
  · rintro ⟨u, v, rfl, hu, hne, h⟩; exact .star hP hu hne h

theorem globMatch_byte_iff {c : Char} (h1 : c ≠ '\\') (h2 : c ≠ '*') (h3 : c ≠ '?') :
    GlobMatch span slash (c :: P) s ↔ ∃ v, s = c :: v ∧ GlobMatch span (c == '/') P v := by
  constructor
  · intro h
    cases h with
    | escape => exact absurd rfl h1
    | qmark => exact absurd rfl h3
    | doubleStar => exact absurd rfl h2
    | star => exact absurd rfl h2
    | byte _ _ _ h => exact ⟨_, rfl, h⟩
  · rintro ⟨v, rfl, h⟩; exact .byte h1 h2 h3 h

end Inversion

/-! ## The regex text of one glob construct -/

/-- The tokens a quantifier adds after its atom. -/
def quantTokens : Quant → List Token
  | .one => []
  | q => [.quant q]

/-- The regex text `out` of a pattern tail `P` scans to tokens that do not start with a
quantifier and compiles to terms that match exactly the glob language of `P`, whatever
the character before. -/
def Denotes (slash : Bool) (P out : List Char) : Prop :=
  ∃ toks, scan out = .ok toks ∧ StartsAtom toks ∧ ∃ ts, assemble toks = .ok ts ∧
    ∀ prev s, matchFrom ts prev s = true ↔ GlobMatch notLineTerminator slash P s

theorem denotes_nil (slash : Bool) : Denotes slash [] [] :=
  ⟨[], rfl, fun _ => by simp, [], rfl, fun _ s => by simp [globMatch_nil_iff]⟩

/-- The text of one construct in front of a tail: its atom and quantifier come first,
and what they consume is what the construct spans. -/
theorem Denotes.cons {slash slash' : Bool} {P P' out : List Char} (chunk : List Char)
    {a : CharClass} {q : Quant}
    (hscan : ∀ r toks, scan r = .ok toks → scan (chunk ++ r) = .ok (.atom a :: (quantTokens q ++ toks)))
    (hsem : ∀ G : List Char → Prop, (∀ s, G s ↔ GlobMatch notLineTerminator slash' P' s) → ∀ s,
      (∃ u v, s = u ++ v ∧ q.admits u.length ∧ (∀ x ∈ u, a.test x) ∧ G v) ↔
        GlobMatch notLineTerminator slash P s)
    (h : Denotes slash' P' out) : Denotes slash P (chunk ++ out) := by
  obtain ⟨toks, hs, hst, ts, ha, hm⟩ := h
  refine ⟨_, hscan _ _ hs, fun _ => by simp, .atom a q :: ts, ?_, fun prev s => ?_⟩
  · cases q with
    | one => exact assemble_one hst ha
    | _ => exact assemble_quant hst ha
  · rw [matchFrom_atom, ← hsem (fun v => matchFrom ts (lastAfter prev []) v = true) ?_ s]
    · exact exists_congr fun u => exists_congr fun v => by
        constructor <;> rintro ⟨rfl, hq, hu, hv⟩ <;> exact ⟨rfl, hq, hu, by rwa [hm] at hv ⊢⟩
    · exact fun s => hm _ s

/-- An unquantified atom consumes one character its class accepts. -/
theorem one_iff {a : CharClass} {G : List Char → Prop} (s : List Char) :
    (∃ u v, s = u ++ v ∧ Quant.one.admits u.length ∧ (∀ x ∈ u, a.test x) ∧ G v) ↔
      ∃ x v, s = x :: v ∧ a.test x ∧ G v := by
  constructor
  · rintro ⟨u, v, rfl, hq, hu, hv⟩
    match u, hq with
    | [x], _ => exact ⟨x, v, rfl, hu x (by simp), hv⟩
  · rintro ⟨x, v, rfl, hx, hv⟩
    exact ⟨[x], v, rfl, rfl, by simpa using hx, hv⟩

/-- A construct that consumes exactly the character `c`. -/
theorem lit_iff {c : Char} {G : List Char → Prop} (s : List Char) :
    (∃ u v, s = u ++ v ∧ Quant.one.admits u.length ∧ (∀ x ∈ u, (CharClass.lit c).test x) ∧ G v) ↔
      ∃ v, s = c :: v ∧ G v := by
  rw [one_iff]
  constructor
  · rintro ⟨x, v, rfl, hx, hv⟩; exact ⟨v, by simpa using hx, hv⟩
  · rintro ⟨v, rfl, hv⟩; exact ⟨c, v, rfl, by simp, hv⟩

theorem denotes_escape {slash : Bool} {c : Char} {P out : List Char}
    (hc : isEcmaEscape c = false) (h : Denotes (c == '/') P out) :
    Denotes slash ('\\' :: c :: P) ('\\' :: c :: out) :=
  Denotes.cons ['\\', c] (a := .lit c) (q := .one)
    (fun _ _ hr => scan_escape (escapeToken_lit hc) hr)
    (fun _ hG s => by rw [lit_iff, globMatch_escape_iff]; simp only [hG]) h

theorem denotes_byte {slash : Bool} {c : Char} {P out : List Char} (h1 : c ≠ '\\')
    (h2 : c ≠ '*') (h3 : c ≠ '?') (hb : plainByte c = true) (h : Denotes (c == '/') P out) :
    Denotes slash (c :: P) ((if c ∈ metaChars then ['\\', c] else [c]) ++ out) := by
  refine Denotes.cons _ (a := .lit c) (q := .one) (fun r toks hr => ?_)
    (fun _ hG s => by rw [lit_iff, globMatch_byte_iff h1 h2 h3]; simp only [hG]) h
  simp only [plainByte, Bool.and_eq_true, bne_iff_ne, ne_eq] at hb
  split_ifs with hm
  · have hmeta : ∀ x ∈ metaChars, isEcmaEscape x = false := by decide
    exact scan_escape (escapeToken_lit (hmeta c hm)) hr
  · have : isSyntaxChar c = false := by
      simp only [metaChars, List.mem_cons] at hm
      simp only [isSyntaxChar, List.mem_cons]; simp_all
    exact scan_char h1 hb.1.2 (charToken_lit this) hr

theorem denotes_qmark {slash : Bool} {P out : List Char} (h : Denotes false P out) :
    Denotes slash ('?' :: P) ("[^/]".toList ++ out) :=
  Denotes.cons _ (a := .notSlash) (q := .one) (fun _ _ hr => scan_notSlash hr)
    (fun _ hG s => by rw [one_iff, globMatch_qmark_iff]; simp only [hG, test_notSlash]) h

theorem denotes_doubleStar {slash : Bool} {P out : List Char} (hP : P.head? ≠ some '*')
    (h : Denotes false P out) : Denotes slash ('*' :: '*' :: P) (".*".toList ++ out) :=
  Denotes.cons _ (a := .dot) (q := .star)
    (fun _ _ hr => scan_char (by decide) (by decide) rfl (scan_char (by decide) (by decide) rfl hr))
    (fun _ hG s => by
      rw [globMatch_doubleStar_iff hP]; simp only [hG, test_dot, Quant.admits, true_and]; rfl) h

/-- The NUL after a pattern tail with no NUL is its end. -/
theorem head_append_nul {P : List Char} (hP0 : P.head? ≠ some '\x00') :
    ((P ++ ['\x00']).head? = some '/' ∨ (P ++ ['\x00']).head? = some '\x00') ↔
      (P = [] ∨ P.head? = some '/') := by
  cases P with
  | nil => simp
  | cons c P => simp_all

theorem denotes_star {re P out : List Char} (hP : P.head? ≠ some '*')
    (hP0 : P.head? ≠ some '\x00') (h : Denotes false P out) :
    Denotes (re.getLast? == some '/') ('*' :: P) (singleStar re (P ++ ['\x00']) ++ out) := by
  simp only [singleStar, head_append_nul hP0]
  split_ifs with hc
  · refine Denotes.cons _ (a := .notSlash) (q := .plus)
      (fun _ _ hr => scan_notSlash (scan_char (by decide) (by decide) rfl hr)) (fun _ hG s => ?_) h
    rw [globMatch_star_iff hP]
    simp only [hG, test_notSlash, Quant.admits, decide_eq_true_eq, List.length_pos, hc, beq_self_eq_true,
      forall_const]
    constructor
    · rintro ⟨u, v, rfl, hne, hu, hv⟩; exact ⟨u, v, rfl, hu, hne, hv⟩
    · rintro ⟨u, v, rfl, hu, hne, hv⟩; exact ⟨u, v, rfl, hne, hu, hv⟩
  · refine Denotes.cons _ (a := .notSlash) (q := .star)
      (fun _ _ hr => scan_notSlash (scan_char (by decide) (by decide) rfl hr)) (fun _ hG s => ?_) h
    rw [globMatch_star_iff hP]
    simp only [hG, test_notSlash, Quant.admits, true_and]
    constructor
    · rintro ⟨u, v, rfl, hu, hv⟩
      exact ⟨u, v, rfl, hu, fun hs hp => absurd ⟨by simpa using hs, hp⟩ hc, hv⟩
    · rintro ⟨u, v, rfl, hu, -, hv⟩; exact ⟨u, v, rfl, hu, hv⟩

/-! ## The translation loop -/

theorem ecmaSafe_cons {c : Char} {P : List Char} (hc : c ≠ '\\') : ecmaSafe (c :: P) = ecmaSafe P := by
  rw [ecmaSafe.eq_2]; exact fun _ _ h => absurd h hc

/-- A glob pattern does not start with a NUL. -/
theorem globPattern_head {d : Char} {P : List Char} (h : globPattern (d :: P) = true) :
    d ≠ '\x00' := by
  rintro rfl
  rw [globPattern.eq_6] at h
  · simp [plainByte] at h
  all_goals simp

/-- A pattern tail and its NUL start with `x` only if the tail does. -/
theorem append_nul_ne_cons {P : List Char} {x : Char} (hx : x ≠ '\x00') (hP : P.head? ≠ some x)
    (tail : List Char) : P ++ ['\x00'] ≠ x :: tail := by
  cases P with
  | nil => intro h; simp only [List.nil_append, List.cons.injEq] at h; exact hx h.1.symm
  | cons c P => simp_all

/-- A list that is no `c :: t` does not start with `c`. -/
theorem head?_ne_of_forall_ne {P : List Char} {c : Char} (h : ∀ t, P = c :: t → False) :
    P.head? ≠ some c := by
  cases P with
  | nil => simp
  | cons d P => simpa using fun hd => h P (by rw [hd])

/-- **The loop translates a pattern into its glob language.** From a glob pattern with no
ECMAScript escape, `compileLoop` appends to the regex so far a text that denotes the
pattern, the byte before it being a `/` exactly when the regex so far ends with one. -/
theorem compileLoop_denotes (P : List Char) (hP : globPattern P = true)
    (hE : ecmaSafe P = true) (re : List Char) :
    ∃ out, compileLoop (P ++ ['\x00']) re = .ok (re ++ out) ∧
      Denotes (re.getLast? == some '/') P out := by
  induction P using globPattern.induct generalizing re with
  | case1 => exact ⟨[], by simp [compileLoop], denotes_nil _⟩
  | case2 => simp [globPattern] at hP
  | case3 c P ih =>
    simp only [globPattern, ecmaSafe, Bool.and_eq_true, Bool.not_eq_true'] at hP hE
    obtain ⟨out, hl, hd⟩ := ih hP.2 hE.2 (re ++ ['\\', c])
    refine ⟨'\\' :: c :: out, by simpa [compileLoop] using hl, denotes_escape hE.1 ?_⟩
    simpa using hd
  | case4 => simp [globPattern] at hP
  | case5 P hP' ih =>
    simp only [globPattern] at hP
    simp only [ecmaSafe] at hE
    obtain ⟨out, hl, hd⟩ := ih hP hE (re ++ ".*".toList)
    have hhead := head?_ne_of_forall_ne hP'
    refine ⟨".*".toList ++ out, ?_, denotes_doubleStar hhead (by simpa using hd)⟩
    rw [List.cons_append, List.cons_append,
      compileLoop.eq_6 _ _ (append_nul_ne_cons (by decide) hhead), hl]
    simp
  | case6 c P h1 h2 h3 h4 ih =>
    have hc : c ≠ '\\' := by rintro rfl; cases P <;> simp_all
    simp only [globPattern.eq_6 c P h1 h2 h3 h4, Bool.and_eq_true] at hP
    rw [ecmaSafe_cons hc] at hE
    have hb := hP.1
    simp only [plainByte, Bool.and_eq_true, bne_iff_ne, ne_eq] at hb
    have hP0 : P.head? ≠ some '\x00' := by
      cases P with
      | nil => simp
      | cons d P => simp only [List.head?_cons, ne_eq, Option.some.injEq]; exact globPattern_head hP.2
    rw [List.cons_append]
    by_cases hs : c = '*'
    · subst hs
      have hhead := head?_ne_of_forall_ne (h4 · rfl)
      obtain ⟨out, hl, hd⟩ := ih hP.2 hE (re ++ singleStar re (P ++ ['\x00']))
      rw [compileLoop.eq_7 _ _ (fun t => append_nul_ne_cons (by decide) hhead _)
        (fun t => append_nul_ne_cons (by decide) hhead _), hl]
      refine ⟨singleStar re (P ++ ['\x00']) ++ out, by simp, denotes_star hhead hP0 ?_⟩
      have hlast : ((re ++ singleStar re (P ++ ['\x00'])).getLast? == some '/') = false := by
        unfold singleStar; split_ifs <;> simp [List.getLast?_append]
      rwa [hlast] at hd
    · by_cases hq : c = '?'
      · subst hq
        obtain ⟨out, hl, hd⟩ := ih hP.2 hE (re ++ "[^/]".toList)
        rw [compileLoop.eq_8, hl]
        exact ⟨"[^/]".toList ++ out, by simp, denotes_qmark (by simpa using hd)⟩
      · obtain ⟨out, hl, hd⟩ := ih hP.2 hE (re ++ if c ∈ metaChars then ['\\', c] else [c])
        rw [compileLoop.eq_9 _ _ _ hb.1.1 hc (fun _ h => absurd h hs) (fun _ h => absurd h hs) hs hq, hl]
        refine ⟨(if c ∈ metaChars then ['\\', c] else [c]) ++ out, by simp, denotes_byte hc hs hq hP.1 ?_⟩
        split_ifs at hd <;> simpa using hd

/-- **A run of three `*` is rejected.** The loop reaches the first run of three unescaped
`*` of a pattern with no NUL, and throws there. -/
theorem compileLoop_starRun3 (P : List Char) (hP : ∀ c ∈ P, c ≠ '\x00') (hs : starRun3 P = true)
    (re : List Char) : compileLoop (P ++ ['\x00']) re = .error (.runtime "too many *s") := by
  induction P using starRun3.induct generalizing re with
  | case1 c P ih =>
    simp only [starRun3, List.mem_cons, forall_eq_or_imp] at hs hP
    simp only [List.cons_append, compileLoop]
    exact ih hP.2.2 hs _
  | case2 => rfl
  | case3 P hP' ih =>
    simp only [starRun3.eq_3 P hP', List.mem_cons, forall_eq_or_imp] at hs hP
    have hhead := head?_ne_of_forall_ne hP'
    rw [List.cons_append, List.cons_append,
      compileLoop.eq_6 _ _ (append_nul_ne_cons (by decide) hhead), ih hP.2.2 hs]
  | case4 c P h1 h2 h3 ih =>
    rw [starRun3.eq_4 c P h1 h2 h3] at hs
    simp only [List.mem_cons, forall_eq_or_imp] at hP
    have hc : c ≠ '\\' := by
      rintro rfl
      cases P with
      | nil => simp [starRun3] at hs
      | cons d P => exact h1 d P rfl rfl
    rw [List.cons_append]
    by_cases hst : c = '*'
    · subst hst
      have hhead := head?_ne_of_forall_ne (h3 · rfl)
      rw [compileLoop.eq_7 _ _ (fun t => append_nul_ne_cons (by decide) hhead _)
        (fun t => append_nul_ne_cons (by decide) hhead _), ih hP.2 hs]
    · by_cases hq : c = '?'
      · subst hq; rw [compileLoop.eq_8, ih hP.2 hs]
      · rw [compileLoop.eq_9 _ _ _ hP.1 hc (fun _ h => absurd h hst) (fun _ h => absurd h hst) hst hq,
          ih hP.2 hs]
  | case5 => simp [starRun3] at hs

/-! ## The compiled rule -/

/-- Leading spaces hold no `*`. -/
theorem starRun3_dropWhile_spaces (P : List Char) : starRun3 (P.dropWhile (· == ' ')) = starRun3 P := by
  induction P with
  | nil => rfl
  | cons c P ih =>
    rw [List.dropWhile_cons]
    split
    · rename_i h
      rw [ih, show c = ' ' by simpa using h, starRun3.eq_4] <;> simp
    · rfl

/-- The spaces after the rule type are skipped up to the pattern. -/
theorem dropWhile_spaces (n : Nat) (P : List Char) (hP : P.head? ≠ some ' ') :
    (List.replicate n ' ' ++ (P ++ ['\x00'])).dropWhile (· == ' ') = P ++ ['\x00'] := by
  induction n with
  | zero => cases P <;> simp_all [List.dropWhile_cons]
  | succ n ih => simpa [List.replicate_succ, List.dropWhile_cons] using ih

/-- A floating pattern's regex: `.*/` before the pattern's own text. -/
theorem denotes_floating {P out : List Char} (h : Denotes true P out) :
    ∃ ts, parse (".*/".toList ++ out) = .ok ts ∧ ∀ s, matchFrom ts none s = true ↔
      ∃ u v, s = u ++ '/' :: v ∧ (∀ x ∈ u, notLineTerminator x) ∧
        GlobMatch notLineTerminator true P v := by
  obtain ⟨toks, hs, hst, ts, ha, hm⟩ := h
  have hscan : scan (".*/".toList ++ out) =
      .ok (.atom .dot :: .quant .star :: .atom (.lit '/') :: toks) :=
    scan_char (by decide) (by decide) rfl (scan_char (by decide) (by decide) rfl
      (scan_char (by decide) (by decide) rfl hs))
  refine ⟨_, by rw [parse, hscan]; exact assemble_quant (fun _ => by simp) (assemble_one hst ha),
    fun s => ?_⟩
  simp only [matchFrom_star, matchFrom_one, test_dot, test_lit, hm]
  constructor
  · rintro ⟨u, _, rfl, hu, _, v, rfl, rfl, hv⟩; exact ⟨u, v, rfl, hu, hv⟩
  · rintro ⟨u, v, rfl, hu, hv⟩; exact ⟨u, _, rfl, hu, _, v, rfl, rfl, hv⟩

/-- A glob pattern holds no NUL. -/
theorem globPattern_no_nul (P : List Char) (hP : globPattern P = true) : ∀ c ∈ P, c ≠ '\x00' := by
  induction P using globPattern.induct with
  | case1 => simp
  | case2 => simp [globPattern] at hP
  | case3 c P ih =>
    simp only [globPattern, plainByte, Bool.and_eq_true, bne_iff_ne, ne_eq] at hP
    simpa [hP.1.1.1] using ih hP.2
  | case4 => simp [globPattern] at hP
  | case5 P hP' ih => rw [globPattern.eq_5 P hP'] at hP; simpa using ih hP
  | case6 c P h1 h2 h3 h4 ih =>
    rw [globPattern.eq_6 c P h1 h2 h3 h4] at hP
    simp only [plainByte, Bool.and_eq_true, bne_iff_ne, ne_eq] at hP
    simpa [hP.1.1.1] using ih hP.2

/-- A rule's type byte, once checked, leaves the pattern to `compilePattern`. -/
theorem compileFilterRule_sign {sign : Char} (hsign : sign = '+' ∨ sign = '-') (rest : List Char) :
    compileFilterRule (sign :: rest) =
      compilePattern (if sign = '+' then .include else .exclude) (rest ++ ['\x00']) := by
  rw [compileFilterRule_cons]
  rcases hsign with rfl | rfl <;> simp

/-- A rule whose pattern is a glob pattern, starts with no space and escapes no
ECMAScript escape letter compiles, and its regex matches the glob language. -/
theorem compilePattern_glob (t : RuleType) (n : Nat) (P : List Char) (hP : globPattern P = true)
    (hE : ecmaSafe P = true) (hsp : P.head? ≠ some ' ') :
    ∃ r, compilePattern t (List.replicate n ' ' ++ P ++ ['\x00']) = .ok r ∧ r.type = t ∧
      r.floating = floatingPattern P ∧
      ∀ s, regexMatch r.re s = true ↔ GlobAccepts notLineTerminator P s := by
  have hP0 := globPattern_no_nul P hP
  have hfl : ((P ++ ['\x00']).headD '\x00' != '\x00' && (P ++ ['\x00']).headD '\x00' != '/') =
      floatingPattern P := by
    cases P with
    | nil => rfl
    | cons c P => simp [floatingPattern, hP0 c (by simp)]
  rw [compilePattern, List.append_assoc, dropWhile_spaces n P hsp, hfl]
  cases hf : floatingPattern P
  · obtain ⟨out, hl, ⟨toks, hs, -, ts, ha, hm⟩⟩ := compileLoop_denotes P hP hE []
    refine ⟨⟨t, false, ts⟩, ?_, rfl, rfl, fun s => ?_⟩
    · simp [hl, parse, hs, ha, bind, Except.bind, Except.mapError, pure, Except.pure]
    · simp [regexMatch, hm, GlobAccepts, hf]
  · obtain ⟨out, hl, hd⟩ := compileLoop_denotes P hP hE ".*/".toList
    obtain ⟨ts, hp, hm⟩ := denotes_floating hd
    refine ⟨⟨t, true, ts⟩, ?_, rfl, rfl, fun s => ?_⟩
    · simp only [↓reduceIte, hl, hp, bind, Except.bind, Except.mapError, pure, Except.pure]
    · simp [regexMatch, hm, GlobAccepts, hf]

/-- A pattern with no NUL and a run of three unescaped `*` is rejected, whatever spaces
come before it. -/
theorem compilePattern_starRun3 (t : RuleType) (n : Nat) (P : List Char)
    (hP : ∀ c ∈ P, c ≠ '\x00') (hs : starRun3 P = true) :
    compilePattern t (List.replicate n ' ' ++ P ++ ['\x00']) = .error (.runtime "too many *s") := by
  have hdrop : (List.replicate n ' ' ++ P ++ ['\x00']).dropWhile (· == ' ') =
      P.dropWhile (· == ' ') ++ ['\x00'] := by
    rw [dropWhile_space_append_nul]
    induction n with
    | zero => rfl
    | succ n ih => simp [List.replicate_succ, List.dropWhile_cons, ih]
  have hrun := compileLoop_starRun3 (P.dropWhile (· == ' '))
    (fun c hc => hP c ((List.dropWhile_suffix _).subset hc)) (starRun3_dropWhile_spaces P ▸ hs)
  rw [compilePattern, hdrop]
  simp only [hrun, bind, Except.bind]

/-- **`compile_filter_rule` against the glob language.** A rule made of `+` or `-`, any
number of spaces and a glob pattern that does not start with a space and
escapes no ECMAScript escape letter compiles to a rule of that type, floating exactly when
the pattern does, whose regex fully matches the paths the glob language accepts, `**`
and the floating prefix spanning every byte but `\n` and `\r`. A pattern with no NUL and
a run of three unescaped `*` is rejected. -/
theorem compileFilterRule_glob (sign : Char) (hsign : sign = '+' ∨ sign = '-') (n : Nat) :
    (∀ P, globPattern P = true → ecmaSafe P = true → P.head? ≠ some ' ' →
      ∃ r, compileFilterRule (sign :: (List.replicate n ' ' ++ P)) = .ok r ∧
        r.type = (if sign = '+' then .include else .exclude) ∧ r.floating = floatingPattern P ∧
        ∀ s, regexMatch r.re s = true ↔ GlobAccepts notLineTerminator P s) ∧
    (∀ P, (∀ c ∈ P, c ≠ '\x00') → starRun3 P = true →
      compileFilterRule (sign :: (List.replicate n ' ' ++ P)) = .error (.runtime "too many *s")) := by
  simp only [compileFilterRule_sign hsign]
  exact ⟨compilePattern_glob _ n, compilePattern_starRun3 _ n⟩

/-- The rule `+ *.c` compiles to a floating rule whose regex matches the glob language
of `*.c`. -/
theorem compileFilterRule_glob_star_dot_c :
    ∃ r, compileFilterRule "+ *.c".toList = .ok r ∧
      ∀ s, regexMatch r.re s = true ↔ GlobAccepts notLineTerminator "*.c".toList s :=
  let ⟨r, h, _, _, hm⟩ := (compileFilterRule_glob '+' (.inl rfl) 1).1 "*.c".toList rfl rfl (by decide)
  ⟨r, h, hm⟩

/-- **Where the glob description and the translation part.** Each rule below has a
glob pattern whose glob language accepts a path the compiled regex does
not match: `/**` against a newline, which `.` does not span; `/\d` against the byte
`d`, `\d` being ECMAScript's digit class; and the pattern ` a`, whose leading space is
skipped with the others. -/
theorem compileFilterRule_glob_counterexample :
    (globPattern "/**".toList = true ∧ GlobAccepts anyByte "/**".toList "/\n".toList ∧
      ∃ r, compileFilterRule "+/**".toList = .ok r ∧ regexMatch r.re "/\n".toList = false) ∧
    (globPattern "/\\d".toList = true ∧ GlobAccepts anyByte "/\\d".toList "/d".toList ∧
      ∃ r, compileFilterRule "+/\\d".toList = .ok r ∧ regexMatch r.re "/d".toList = false) ∧
    (globPattern " a".toList = true ∧ GlobAccepts anyByte " a".toList "/ a".toList ∧
      ∃ r, compileFilterRule "+ a".toList = .ok r ∧ regexMatch r.re "/ a".toList = false) := by
  refine ⟨⟨rfl, ?_, _, rfl, rfl⟩, ⟨rfl, ?_, _, rfl, rfl⟩, ⟨rfl, ?_, _, rfl, rfl⟩⟩
  · exact .byte (by decide) (by decide) (by decide)
      (.doubleStar (u := ['\n']) (by simp) (fun _ _ => trivial) (.nil false))
  · exact .byte (by decide) (by decide) (by decide) (.escape 'd' (.nil _))
  · exact ⟨[], " a".toList, rfl, by simp, .byte (by decide) (by decide) (by decide)
      (.byte (by decide) (by decide) (by decide) (.nil _))⟩

end Dwarfs.Filter
