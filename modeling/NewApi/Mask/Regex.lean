import NewApi.Mask.Host

/-!
# The patterns of `MaskSensitiveInfo` and `ReplaceAllStringFunc`

`MaskSensitiveInfo` makes three passes of `regexp.ReplaceAllStringFunc`, one for each of the
patterns

* `(http|https)://[^\s/$.?#].[^\s]*` (URLs),
* `\b(?:[a-zA-Z0-9](?:[a-zA-Z0-9-]{0,61}[a-zA-Z0-9])?\.)+[a-zA-Z]{2,}\b` (domains),
* `\b(?:\d{1,3}\.){3}\d{1,3}\b` (IPv4 addresses).

Go's `regexp` gives, at the leftmost position where the pattern matches, the match a
backtracking engine finds first.  Each pattern is modelled by a matcher that computes that
match from the text at a position and the character before it (which `\b` reads).  The
derivation is in each matcher's docstring: a label or a digit group is always a whole run of its
characters, so the only choice the engine makes is how many repetitions to take, greedy first.
`\b`, `\d`, `\s` and `[a-zA-Z]` are ASCII classes in Go.

`replaceAll` is the loop of `Regexp.replaceAll`: it looks for the leftmost match from the search
position, copies the text before it, writes the replacement, and searches again from the match's
end.  None of the three patterns matches the empty text.

* `replaceAll_of_forall`: a pass changes nothing in a text where no suffix starts a match.
* `replaceAll_append_of_none`, `replaceAll_match`: a pass walks over text where no match starts,
  and replaces a match as a whole.
* `noMatch_replaceAllFunc`: the IPv4 pass, whose replacement holds no digit, leaves no match in
  what it writes.  A position it walked over cannot start a match once the text after it is
  replaced: an address can only go on past a non-digit after a `.`, with a new digit group, and
  a replaced match started after a non-word character.
-/

namespace NewApi

/-! ## Character classes -/

/-- A word character for `\b`: an ASCII letter or digit, or `_`. -/
def isWordChar (c : Char) : Bool := c.isAlphanum || c == '_'

/-- `\s`: `[\t\n\f\r ]`. -/
def isSpaceChar (c : Char) : Bool :=
  c == '\t' || c == '\n' || c == '\x0c' || c == '\r' || c == ' '

/-- A digit is a word character. -/
theorem isDigit_eq_false_of_isWordChar {c : Char} (h : isWordChar c = false) :
    c.isDigit = false := by
  simp_all [isWordChar, Char.isAlphanum]

/-- `[a-zA-Z0-9-]`. -/
def isLabelChar (c : Char) : Bool := c.isAlphanum || c == '-'

/-! ## `ReplaceAllStringFunc` -/

/-- The loop of `Regexp.replaceAll` for a pattern that never matches the empty text.
`matchAt prev s` is the length of the pattern's match at the front of `s`, `prev` being the
character before it.  `skip` counts the characters of the last match still to pass over; the
search resumes at the match's end. -/
def replaceAllFunc (matchAt : Option Char → List Char → Option Nat)
    (repl : List Char → List Char) : Nat → Option Char → List Char → List Char
  | _, _, [] => []
  | skip + 1, _, c :: cs => replaceAllFunc matchAt repl skip (some c) cs
  | 0, prev, c :: cs =>
    match matchAt prev (c :: cs) with
    | some (n + 1) => repl ((c :: cs).take (n + 1)) ++ replaceAllFunc matchAt repl n (some c) cs
    | _ => c :: replaceAllFunc matchAt repl 0 (some c) cs

/-- `re.ReplaceAllStringFunc(src, repl)`. -/
def replaceAll (matchAt : Option Char → List Char → Option Nat) (repl : List Char → List Char)
    (src : List Char) : List Char :=
  replaceAllFunc matchAt repl 0 none src

/-- The pattern matches at no position of the text, `prev` being the character before it. -/
def NoMatch (matchAt : Option Char → List Char → Option Nat) : Option Char → List Char → Prop
  | _, [] => True
  | prev, c :: cs => matchAt prev (c :: cs) = none ∧ NoMatch matchAt (some c) cs

section Replace

variable {matchAt : Option Char → List Char → Option Nat} {repl : List Char → List Char}

theorem replaceAllFunc_skip (prev : Option Char) (xs ys : List Char) :
    replaceAllFunc matchAt repl xs.length prev (xs ++ ys) =
      replaceAllFunc matchAt repl 0 (xs.getLast?.or prev) ys := by
  induction xs generalizing prev with
  | nil => rfl
  | cons x xs ih =>
    rw [List.length_cons, List.cons_append, replaceAllFunc, ih]
    cases xs <;> rfl

theorem replaceAllFunc_of_none {prev : Option Char} {c : Char} {cs : List Char}
    (h : matchAt prev (c :: cs) = none) :
    replaceAllFunc matchAt repl 0 prev (c :: cs) =
      c :: replaceAllFunc matchAt repl 0 (some c) cs := by
  simp only [replaceAllFunc, h]

theorem replaceAllFunc_of_some {prev : Option Char} {c : Char} {cs : List Char} {n : Nat}
    (h : matchAt prev (c :: cs) = some (n + 1)) :
    replaceAllFunc matchAt repl 0 prev (c :: cs) =
      repl ((c :: cs).take (n + 1)) ++ replaceAllFunc matchAt repl n (some c) cs := by
  simp only [replaceAllFunc, h]

/-- A match is replaced as a whole, and the search resumes after it. -/
theorem replaceAll_match {prev : Option Char} {xs ys : List Char} (hxs : xs ≠ [])
    (h : matchAt prev (xs ++ ys) = some xs.length) :
    replaceAllFunc matchAt repl 0 prev (xs ++ ys) =
      repl xs ++ replaceAllFunc matchAt repl 0 xs.getLast? ys := by
  obtain ⟨c, cs, rfl⟩ := List.exists_cons_of_ne_nil hxs
  rw [List.cons_append] at h ⊢
  rw [List.length_cons] at h
  rw [replaceAllFunc_of_some h, replaceAllFunc_skip, List.take_succ_cons]
  cases cs <;> simp [List.getLast?_cons]

/-- A pass changes nothing in a text when some property of it, kept by its suffixes, rules out a
match at every position. -/
theorem replaceAll_of_forall {P : List Char → Prop} (hP : ∀ c cs, P (c :: cs) → P cs)
    (hm : ∀ prev c cs, P (c :: cs) → matchAt prev (c :: cs) = none) :
    ∀ (s : List Char) (prev : Option Char), P s → replaceAllFunc matchAt repl 0 prev s = s
  | [], _, _ => by simp [replaceAllFunc]
  | c :: cs, prev, h => by
    rw [replaceAllFunc_of_none (hm prev c cs h), replaceAll_of_forall hP hm cs _ (hP c cs h)]

/-- A pass walks over text where no match starts. -/
theorem replaceAll_append_of_none {xs : List Char} (ys : List Char) (prev : Option Char)
    (h : ∀ i < xs.length, matchAt ((xs.take i).getLast?.or prev) (xs.drop i ++ ys) = none) :
    replaceAllFunc matchAt repl 0 prev (xs ++ ys) =
      xs ++ replaceAllFunc matchAt repl 0 (xs.getLast?.or prev) ys := by
  induction xs generalizing prev with
  | nil => rfl
  | cons x xs ih =>
    have h0 : matchAt prev (x :: (xs ++ ys)) = none := by simpa using h 0 (by simp)
    rw [List.cons_append, replaceAllFunc_of_none h0, ih (some x) fun i hi => ?_]
    · cases xs <;> simp [List.getLast?_cons]
    · have hor : ∀ o : Option Char, o.or (some x) = some (o.getD x) := fun o => by cases o <;> rfl
      simpa [List.getLast?_cons, hor] using h (i + 1) (by simp; omega)

/-- A pass changes nothing in a text where the pattern matches nowhere. -/
theorem replaceAll_of_noMatch : ∀ {prev : Option Char} {s : List Char}, NoMatch matchAt prev s →
    replaceAllFunc matchAt repl 0 prev s = s
  | _, [], _ => rfl
  | _, _ :: _, ⟨h, hs⟩ => by rw [replaceAllFunc_of_none h, replaceAll_of_noMatch hs]

theorem noMatch_append {prev : Option Char} {xs ys : List Char}
    (hxs : ∀ x ∈ xs, ∀ p rest, matchAt p (x :: rest) = none)
    (hys : NoMatch matchAt (xs.getLast?.or prev) ys) : NoMatch matchAt prev (xs ++ ys) := by
  induction xs generalizing prev with
  | nil => exact hys
  | cons x xs ih =>
    refine ⟨hxs x (List.mem_cons_self _ _) _ _,
      ih (fun y hy => hxs y (List.mem_cons_of_mem _ hy)) ?_⟩
    cases xs <;> simpa [List.getLast?_cons] using hys

end Replace

/-! ## URLs -/

/-- The rest of the URL pattern after the scheme and `://`: `[^\s/$.?#]` and `.` (any character
but a newline) take one character each, and the greedy `[^\s]*`, with nothing after it, takes
every non-space character that follows. -/
def urlMatchAfter (n : Nat) : List Char → Option Nat
  | c :: d :: rest =>
    if !isSpaceChar c && !"/$.?#".toList.contains c && d != '\n' then
      some (n + 2 + (rest.takeWhile fun c => !isSpaceChar c).length)
    else none
  | _ => none

/-- `(http|https)://[^\s/$.?#].[^\s]*` at the front of the text.  `http` is tried first, but at
most one of the two alternatives is followed by `://`. -/
def urlMatch (s : List Char) : Option Nat :=
  if "http://".toList.isPrefixOf s then urlMatchAfter 7 (s.drop 7)
  else if "https://".toList.isPrefixOf s then urlMatchAfter 8 (s.drop 8)
  else none

/-- The URL pattern has no `\b`. -/
def urlAt (_ : Option Char) (s : List Char) : Option Nat := urlMatch s

/-- Every URL match holds `://`, so text without a `:` has none. -/
theorem urlAt_eq_none {prev : Option Char} {s : List Char} (h : ':' ∉ s) : urlAt prev s = none := by
  unfold urlAt urlMatch
  split_ifs with h₁ h₂
  · exact absurd ((List.isPrefixOf_iff_prefix.1 h₁).subset (by decide)) h
  · exact absurd ((List.isPrefixOf_iff_prefix.1 h₂).subset (by decide)) h
  · rfl

/-! ## Domains -/

/-- `[a-zA-Z0-9](?:[a-zA-Z0-9-]{0,61}[a-zA-Z0-9])?` on a whole run of label characters: at most
63 of them, the first and the last a letter or a digit. -/
def validLabel (label : List Char) : Bool :=
  match label.head?, label.getLast? with
  | some a, some z => a.isAlphanum && z.isAlphanum && decide (label.length ≤ 63)
  | _, _ => false

/-- `[a-zA-Z]{2,}\b`: the letters at the front, when there are at least two and no word
character follows them.  A shorter run would end between two letters, where `\b` fails. -/
def tldMatch (s : List Char) : Option Nat :=
  let t := s.takeWhile Char.isAlpha
  if 2 ≤ t.length ∧ ((s.drop t.length).head?.any isWordChar) = false then some t.length
  else none

/-- `(?:label\.)+[a-zA-Z]{2,}\b` from the start of a label, `label` holding the characters of the
label read so far, last first.  The label is the whole run of label characters and must be
followed by a `.`: a shorter one would be followed by a label character.  Then the greedy `+`
first tries more labels, and falls back to the top-level domain right after this one. -/
def domainScan : List Char → List Char → Option Nat
  | label, c :: cs =>
    if isLabelChar c then domainScan (c :: label) cs
    else if c = '.' ∧ validLabel label.reverse then
      match domainScan [] cs with
      | some n => some (label.length + 1 + n)
      | none => (tldMatch cs).map (label.length + 1 + ·)
    else none
  | _, [] => none

/-- The domain pattern: `\b` holds before a label only after a character that is not a word
character. -/
def domainAt (prev : Option Char) (s : List Char) : Option Nat :=
  if prev.any isWordChar then none else domainScan [] s

theorem domainScan_nil_cons {c : Char} (h : isLabelChar c = false) (cs : List Char) :
    domainScan [] (c :: cs) = none := by
  simp [domainScan, h, validLabel]

theorem domainScan_append {w : List Char} (hw : ∀ c ∈ w, isLabelChar c = true)
    (label rest : List Char) :
    domainScan label (w ++ rest) = domainScan (w.reverse ++ label) rest := by
  induction w generalizing label with
  | nil => rfl
  | cons c w ih =>
    rw [List.cons_append, domainScan, if_pos (hw c (List.mem_cons_self _ _)),
      ih fun d hd => hw d (List.mem_cons_of_mem _ hd)]
    simp

/-! ## IPv4 addresses -/

/-- `(?:\d{1,3}\.){groups}\d{1,3}\b` at the front of the text.  A digit group is always the
whole run of digits: a shorter one is followed by a digit, which is neither `.` nor a place for
`\b`. -/
def ipMatch : Nat → List Char → Option Nat
  | 0, s =>
    let d := s.takeWhile Char.isDigit
    if 1 ≤ d.length ∧ d.length ≤ 3 ∧ ((s.drop d.length).head?.any isWordChar) = false then
      some d.length
    else none
  | groups + 1, s =>
    let d := s.takeWhile Char.isDigit
    if 1 ≤ d.length ∧ d.length ≤ 3 then
      match s.drop d.length with
      | '.' :: rest => (ipMatch groups rest).map (d.length + 1 + ·)
      | _ => none
    else none

/-- The IPv4 pattern, with its leading `\b`. -/
def ipAt (prev : Option Char) (s : List Char) : Option Nat :=
  if prev.any isWordChar then none else ipMatch 3 s

/-- Every IPv4 match starts with a digit. -/
theorem ipMatch_cons {c : Char} (h : c.isDigit = false) (groups : Nat) (cs : List Char) :
    ipMatch groups (c :: cs) = none := by
  cases groups <;> simp [ipMatch, h]

/-- No IPv4 match starts at the end of the text, or at a non-digit. -/
theorem ipMatch_of_head {s : List Char} (h : ∀ c ∈ s.head?, c.isDigit = false) (groups : Nat) :
    ipMatch groups s = none := by
  cases s with
  | nil => cases groups <;> simp [ipMatch]
  | cons c cs => exact ipMatch_cons (h c rfl) groups cs

/-- An IPv4 match is never empty, and no word character follows it. -/
theorem ipMatch_some : ∀ {groups : Nat} {s : List Char} {n : Nat}, ipMatch groups s = some n →
    0 < n ∧ ((s.drop n).head?.any isWordChar) = false
  | 0, s, n, h => by
    simp only [ipMatch] at h
    split_ifs at h with hd
    cases h
    exact ⟨hd.1, hd.2.2⟩
  | groups + 1, s, n, h => by
    simp only [ipMatch] at h
    split_ifs at h
    split at h
    · rename_i rest hrest
      obtain ⟨m, hm, rfl⟩ := Option.map_eq_some'.1 h
      refine ⟨by omega, ?_⟩
      rw [← List.drop_drop, ← List.drop_drop, hrest]
      exact (ipMatch_some hm).2
    · cases h

/-- The digit run at the front of `u ++ w`, when `u` ends with a non-digit, is the one at the front
of `u`: it stops at a character `y` of `u`, and the rest `u''` of `u` after `y` ends with a
non-digit as `u` does, if it is not empty. -/
theorem digitRun_append {u : List Char} (hu : ∀ x ∈ u.getLast?, x.isDigit = false) (hne : u ≠ []) :
    ∃ y u'', (∀ x ∈ u''.getLast?, x.isDigit = false) ∧ ∀ w : List Char,
      (u ++ w).takeWhile Char.isDigit = u.takeWhile Char.isDigit ∧
        (u ++ w).drop (u.takeWhile Char.isDigit).length = y :: (u'' ++ w) := by
  have hlast : (u.getLast hne).isDigit = false := hu _ (List.getLast_mem_getLast? hne)
  have hlen : (u.takeWhile Char.isDigit).length ≠ u.length := fun h => by
    have := List.takeWhile_eq_self_iff.1 ((List.takeWhile_prefix _).eq_of_length h) _
      (List.getLast_mem hne)
    simp [hlast] at this
  have hsplit := List.takeWhile_append_dropWhile Char.isDigit u
  obtain ⟨y, u'', hyu⟩ := List.exists_cons_of_ne_nil fun he : u.dropWhile Char.isDigit = [] =>
    by simp [List.dropWhile_eq_nil_iff.1 he _ (List.getLast_mem hne)] at hlast
  refine ⟨y, u'', fun x hx => hu x ?_, fun w => ⟨by rw [List.takeWhile_append, if_neg hlen], ?_⟩⟩
  · rw [← hsplit, hyu, List.getLast?_append, List.getLast?_cons, hx]
    rfl
  · calc (u ++ w).drop (u.takeWhile Char.isDigit).length
        = (u.takeWhile Char.isDigit ++ (y :: u'' ++ w)).drop (u.takeWhile Char.isDigit).length := by
          rw [← List.append_assoc, ← hyu, hsplit]
      _ = y :: (u'' ++ w) := List.drop_left _ _

/-- An IPv4 match can go on past a non-digit only after a `.` that ends a group, with a new group,
which starts with a digit.  So when `u` ends with a non-digit, and the text after `u` is replaced
by one that starts with a non-digit, no match appears at the front of `u`. -/
theorem ipMatch_append_eq_none {v v' : List Char} (hv' : ∀ c ∈ v'.head?, c.isDigit = false) :
    ∀ (groups : Nat) {u : List Char}, (∀ x ∈ u.getLast?, x.isDigit = false) →
      ipMatch groups (u ++ v) = none → ipMatch groups (u ++ v') = none
  | groups, [], _, _ => ipMatch_of_head hv' groups
  | 0, x :: xs, hu, h => by
    obtain ⟨y, u'', -, hrun⟩ := digitRun_append hu (List.cons_ne_nil x xs)
    simpa only [ipMatch, (hrun _).1, (hrun _).2, List.head?_cons] using h
  | groups + 1, x :: xs, hu, h => by
    obtain ⟨y, u'', hu'', hrun⟩ := digitRun_append hu (List.cons_ne_nil x xs)
    simp only [ipMatch, (hrun _).1, (hrun _).2] at h ⊢
    split_ifs at h ⊢
    · by_cases hdot : y = '.'
      · subst hdot
        simp only [Option.map_eq_none'] at h ⊢
        exact ipMatch_append_eq_none hv' groups hu'' h
      · split
        · next heq => exact absurd (List.cons.inj heq).1 hdot
        · rfl
    · rfl

theorem ipAt_cons {c : Char} (h : c.isDigit = false) (prev : Option Char) (cs : List Char) :
    ipAt prev (c :: cs) = none := by
  unfold ipAt
  split_ifs
  · rfl
  · exact ipMatch_cons h _ _

theorem ipMatch_of_ipAt {prev : Option Char} {s : List Char} {n : Nat} (h : ipAt prev s = some n) :
    ipMatch 3 s = some n := by
  unfold ipAt at h
  split_ifs at h
  exact h

section IPv4Pass

variable {repl : List Char → List Char} (hrepl : ∀ m, ∀ c ∈ repl m, c.isDigit = false)
  (hne : ∀ m, repl m ≠ [])

include hrepl hne in
/-- What the pass writes at a match starts with the replacement's first character, a non-digit. -/
theorem head_repl_append (m xs : List Char) : ∀ d ∈ (repl m ++ xs).head?, d.isDigit = false := by
  obtain ⟨r, rs, hr⟩ := List.exists_cons_of_ne_nil (hne m)
  intro d hd
  simp only [hr, List.cons_append, List.head?_cons, Option.mem_def, Option.some.injEq] at hd
  subst hd
  exact hrepl m _ (by simp [hr])

include hrepl hne in
/-- What the pass writes after a text `u` can only take a match away from the front of `u`: the
text it skips is copied, and a replacement, which holds no digit, stands where a match started
after a non-word character. -/
theorem ipMatch_replaceAll {groups : Nat} : ∀ (cs : List Char) {u : List Char}, u ≠ [] →
    ipMatch groups (u ++ cs) = none →
      ipMatch groups (u ++ replaceAllFunc ipAt repl 0 u.getLast? cs) = none
  | [], _, _, h => by simpa [replaceAllFunc] using h
  | c :: cs, u, hu, h => by
    rw [replaceAllFunc]
    split
    · rename_i n hm
      have hprev : (u.getLast?.any isWordChar) = false := by
        unfold ipAt at hm
        split_ifs at hm with hw
        simpa using hw
      refine ipMatch_append_eq_none (head_repl_append hrepl hne _ _) groups (fun x hx => ?_) h
      rw [Option.mem_def.1 hx] at hprev
      exact isDigit_eq_false_of_isWordChar hprev
    · have := ipMatch_replaceAll cs (u := u ++ [c]) (by simp) (by simpa using h)
      simpa using this

include hrepl hne in
/-- The pass leaves no match anywhere in what it writes.  Before the output of a suffix, the
character may differ from the one the search saw (a replacement's last character instead of a
match's last digit); then the suffix starts with the character after a match, which is not a
digit. -/
theorem noMatch_replaceAllFunc : ∀ (s : List Char) (skip : Nat) (prev prev' : Option Char),
    (∀ c ∈ (s.drop skip).head?, c.isDigit = false) ∨ (skip = 0 ∧ prev' = prev) →
      NoMatch ipAt prev' (replaceAllFunc ipAt repl skip prev s)
  | [], _, _, _, _ => by simp only [replaceAllFunc, NoMatch]
  | c :: cs, skip + 1, _, prev', h => by
    rw [replaceAllFunc]
    exact noMatch_replaceAllFunc cs skip (some c) prev'
      (Or.inl (by simpa using h.resolve_right (by simp)))
  | c :: cs, 0, prev, prev', h => by
    rw [replaceAllFunc]
    split
    · rename_i n hm
      have hnext := (ipMatch_some (ipMatch_of_ipAt hm)).2
      refine noMatch_append (fun x hx p rest => ipAt_cons (hrepl _ x hx) p rest) ?_
      refine noMatch_replaceAllFunc cs n (some c) _ (Or.inl fun d hd => ?_)
      simp only [List.drop_succ_cons, Option.mem_def.1 hd, Option.any_some] at hnext
      exact isDigit_eq_false_of_isWordChar hnext
    · rename_i hm
      refine ⟨?_, noMatch_replaceAllFunc cs 0 (some c) (some c) (Or.inr ⟨rfl, rfl⟩)⟩
      rcases h with hd | ⟨-, rfl⟩
      · exact ipAt_cons (hd c rfl) _ _
      · have hat : ipAt prev' (c :: cs) = none := by
          cases hat : ipAt prev' (c :: cs) with
          | none => rfl
          | some k =>
            obtain ⟨n, rfl⟩ :=
              Nat.exists_eq_succ_of_ne_zero (ipMatch_some (ipMatch_of_ipAt hat)).1.ne'
            exact absurd hat (hm n)
        unfold ipAt at hat ⊢
        split_ifs at hat ⊢
        · rfl
        · exact ipMatch_replaceAll hrepl hne cs (List.cons_ne_nil c []) hat

end IPv4Pass

end NewApi
