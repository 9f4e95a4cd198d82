import Mathlib.Data.List.Basic
import Mathlib.Data.String.Basic

/-!
# Masking a host: which labels are kept

`MaskSensitiveInfo` (`src/common/str.go`) writes every host it finds with its first labels
replaced by `***`.  `maskHostTail` picks the labels kept at the end: the last one, or the last two
when they look like a country-code suffix such as `co.uk`.  `maskHostForURL` writes one `***`
before them, `maskHostForPlainDomain` one `***` for each label dropped.

Go strings are modelled by their characters, so `strings.Split(s, ".")` is `s.splitOn '.'` and
`strings.Join(parts, ".")` is `['.'].intercalate parts`; `len` counts UTF-8 bytes
(`String.utf8Len`).

* `maskHostTail_eq_self_iff`: the tail is always a suffix of the labels, and all of them exactly
  for a two-label host whose last label has two bytes and whose first has at most three.
* `maskHostForURL_eq`, `maskHostForPlainDomain_eq`: both masks are the kept tail after `***`
  labels.
* `maskHost_whole_host`: both masks write the whole host after `***.` exactly for those
  two-label hosts (`x.ai`, `abc.io`).
-/

namespace NewApi

/-! ## Go's string functions -/

theorem intercalate_cons_cons {α : Type} (sep a b : List α) (l : List (List α)) :
    sep.intercalate (a :: b :: l) = a ++ sep ++ sep.intercalate (b :: l) := by
  simp [List.intercalate, List.intersperse_cons_cons]

theorem intercalate_append {α : Type} (sep : List α) {l₁ l₂ : List (List α)} (h₁ : l₁ ≠ [])
    (h₂ : l₂ ≠ []) :
    sep.intercalate (l₁ ++ l₂) = sep.intercalate l₁ ++ sep ++ sep.intercalate l₂ := by
  induction l₁ with
  | nil => contradiction
  | cons a l ih =>
    cases l with
    | nil =>
      obtain ⟨b, l₂, rfl⟩ := List.exists_cons_of_ne_nil h₂
      simp [intercalate_cons_cons, List.intercalate]
    | cons b l =>
      rw [List.cons_append, List.cons_append, intercalate_cons_cons, ← List.cons_append,
        ih (List.cons_ne_nil _ _), intercalate_cons_cons]
      simp

/-- `strings.Repeat(s, count)`. -/
def stringsRepeat (s : List Char) (count : Nat) : List Char := (List.replicate count s).flatten

theorem stringsRepeat_succ (s : List Char) (count : Nat) :
    stringsRepeat s (count + 1) = stringsRepeat s count ++ s := by
  simp [stringsRepeat, List.replicate_succ', List.flatten_append]

/-- `strings.TrimSuffix(s, suffix)`. -/
def stringsTrimSuffix (s suffix : List Char) : List Char :=
  if suffix.isSuffixOf s then s.take (s.length - suffix.length) else s

/-- `***.` repeated and its last `.` trimmed is stars joined by dots. -/
theorem stringsTrimSuffix_stringsRepeat (n : Nat) :
    stringsTrimSuffix (stringsRepeat "***.".toList (n + 1)) ['.'] =
      ['.'].intercalate (List.replicate (n + 1) "***".toList) := by
  have hrep : stringsRepeat "***.".toList (n + 1) =
      ['.'].intercalate (List.replicate (n + 1) "***".toList) ++ ['.'] := by
    induction n with
    | zero => rfl
    | succ n ih =>
      rw [stringsRepeat, List.replicate_succ, List.flatten_cons, ← stringsRepeat, ih,
        List.replicate_succ _ (n + 1), List.replicate_succ, intercalate_cons_cons,
        ← List.replicate_succ]
      simp
  rw [stringsTrimSuffix, hrep, if_pos (List.isSuffixOf_iff_suffix.2 (List.suffix_append _ _))]
  simp

/-! ## The kept labels -/

/-- `maskHostTail`: the labels kept at the end of a host.  The last two when the last has two
bytes and the one before it at most three (a likely country-code suffix such as `co.uk`),
otherwise the last one; fewer than two labels are kept as they are. -/
def maskHostTail (parts : List (List Char)) : List (List Char) :=
  match parts.reverse with
  | lastPart :: secondLastPart :: _ =>
    if String.utf8Len lastPart = 2 ∧ String.utf8Len secondLastPart ≤ 3 then
      [secondLastPart, lastPart]
    else [lastPart]
  | _ => parts

/-- A two-label host in the country-code branch of `maskHostTail`. -/
def CountryCodePair (parts : List (List Char)) : Prop :=
  ∃ a b, parts = [a, b] ∧ String.utf8Len b = 2 ∧ String.utf8Len a ≤ 3

/-- The tail of at least two labels is a suffix of them, and all of them only for a two-label
host in the country-code branch. -/
theorem maskHostTail_eq_self_iff {parts : List (List Char)} (h : 2 ≤ parts.length) :
    maskHostTail parts <:+ parts ∧ maskHostTail parts ≠ [] ∧
      (maskHostTail parts = parts ↔ CountryCodePair parts) := by
  obtain ⟨init, y, x, rfl⟩ : ∃ init y x, parts = init ++ [y, x] := by
    match hrev : parts.reverse with
    | x :: y :: init =>
      exact ⟨init.reverse, y, x, by rw [← List.reverse_reverse parts, hrev]; simp⟩
    | [] | [_] => simp [← List.length_reverse parts, hrev] at h
  have hinit : ∀ a b : List Char, init ++ [y, x] = [a, b] → init = [] ∧ y = a ∧ x = b := by
    intro a b he
    obtain rfl : init = [] := by simpa using congrArg List.length he
    simpa using he
  have hrev : (init ++ [y, x]).reverse = x :: y :: init.reverse := by simp
  simp only [maskHostTail, hrev, CountryCodePair]
  split_ifs with hc
  · refine ⟨List.suffix_append _ _, List.cons_ne_nil _ _,
      fun he => ⟨y, x, ?_, hc⟩, fun ⟨a, b, he, _⟩ => ?_⟩
    · rw [List.self_eq_append_left.1 he]; rfl
    · rw [(hinit a b he).1]; rfl
  · refine ⟨(List.suffix_cons _ _).trans (List.suffix_append _ _), List.cons_ne_nil _ _,
      fun he => ?_, fun ⟨a, b, he, hb, ha⟩ => ?_⟩
    · have := congrArg List.length he
      simp at this
    · obtain ⟨-, rfl, rfl⟩ := hinit a b he
      exact absurd ⟨hb, ha⟩ hc

/-! ## The two masks -/

/-- `maskHostForURL`: one `***` before the kept labels; a host without a dot is `***`. -/
def maskHostForURL (host : List Char) : List Char :=
  let parts := host.splitOn '.'
  if parts.length < 2 then "***".toList
  else "***.".toList ++ ['.'].intercalate (maskHostTail parts)

/-- `maskHostForPlainDomain`: one `***` for each label dropped, at least one; a domain without a
dot is kept as it is. -/
def maskHostForPlainDomain (domain : List Char) : List Char :=
  let parts := domain.splitOn '.'
  if parts.length < 2 then domain
  else
    let tail := maskHostTail parts
    let numStars := if parts.length - tail.length < 1 then 1 else parts.length - tail.length
    let stars := stringsTrimSuffix (stringsRepeat "***.".toList numStars) ['.']
    stars ++ ['.'] ++ ['.'].intercalate tail

theorem maskHostForURL_eq {host : List Char} (h : 2 ≤ (host.splitOn '.').length) :
    maskHostForURL host = ['.'].intercalate ("***".toList :: maskHostTail (host.splitOn '.')) := by
  obtain ⟨t, ts, ht⟩ := List.exists_cons_of_ne_nil (maskHostTail_eq_self_iff h).2.1
  rw [maskHostForURL, if_neg (by omega), ht, intercalate_cons_cons]
  rfl

theorem maskHostForPlainDomain_eq {domain : List Char} (h : 2 ≤ (domain.splitOn '.').length) :
    maskHostForPlainDomain domain = ['.'].intercalate
      (List.replicate (max 1 ((domain.splitOn '.').length -
        (maskHostTail (domain.splitOn '.')).length)) "***".toList ++
        maskHostTail (domain.splitOn '.')) := by
  set k := (domain.splitOn '.').length - (maskHostTail (domain.splitOn '.')).length
  have hk : (if k < 1 then 1 else k) = (max 1 k - 1) + 1 := by split_ifs <;> omega
  simp only [maskHostForPlainDomain, if_neg (show ¬ (domain.splitOn '.').length < 2 by omega)]
  rw [hk, stringsTrimSuffix_stringsRepeat, ← hk, intercalate_append _ (by simp)
    (maskHostTail_eq_self_iff h).2.1, show (if k < 1 then 1 else k) = max 1 k by
      split_ifs <;> omega]

/-! ## When the whole host is kept -/

/-- The labels of `splitOn` hold no separator. -/
theorem not_mem_of_mem_splitOn {xs l : List Char} (h : l ∈ xs.splitOn '.') : '.' ∉ l := by
  induction xs generalizing l with
  | nil =>
    rw [List.splitOn_nil, List.mem_singleton] at h
    simp [h]
  | cons c cs ih =>
    obtain ⟨hd, tl, he⟩ := List.exists_cons_of_ne_nil (List.splitOnP_ne_nil (· == '.') cs)
    have hih : ∀ l ∈ hd :: tl, '.' ∉ l := fun l hl => ih (by rw [List.splitOn, he]; exact hl)
    rw [List.splitOn, List.splitOnP_cons] at h
    split_ifs at h with hc
    · rcases List.mem_cons.1 h with rfl | h
      · simp
      · exact ih h
    · rw [he] at h
      rcases List.mem_cons.1 h with rfl | h
      · simp only [List.mem_cons, not_or]
        exact ⟨fun e => hc (by subst e; exact beq_self_eq_true _), hih hd (List.mem_cons_self _ _)⟩
      · exact hih l (List.mem_cons_of_mem _ h)

/-- Joining labels with no dot by dots loses nothing. -/
theorem intercalate_dot_inj {ls ls' : List (List Char)} (h : ∀ l ∈ ls, '.' ∉ l)
    (h' : ∀ l ∈ ls', '.' ∉ l) (hne : ls ≠ []) (hne' : ls' ≠ []) :
    ['.'].intercalate ls = ['.'].intercalate ls' ↔ ls = ls' :=
  ⟨fun e => by rw [← List.splitOn_intercalate ls '.' h hne, e,
    List.splitOn_intercalate ls' '.' h' hne'], congrArg _⟩

/-- A host in the country-code branch is written whole after one `***`. -/
theorem maskHostForPlainDomain_of_countryCodePair {host : List Char}
    (h : CountryCodePair (host.splitOn '.')) :
    maskHostForPlainDomain host = "***.".toList ++ host := by
  obtain ⟨a, b, hs, hb, ha⟩ := h
  have hlen : 2 ≤ (host.splitOn '.').length := by simp [hs]
  have htail : maskHostTail (host.splitOn '.') = host.splitOn '.' :=
    (maskHostTail_eq_self_iff hlen).2.2.2 ⟨a, b, hs, hb, ha⟩
  conv_rhs => rw [← List.intercalate_splitOn host '.']
  rw [maskHostForPlainDomain_eq hlen, htail, hs]
  simp [List.intercalate, List.intersperse_cons_cons]

/-- Dot-free labels joined by dots spell `***.` and a host exactly when they are `***` and the
host's labels. -/
theorem intercalate_eq_stars_iff {host : List Char} {ls : List (List Char)}
    (hls : ∀ l ∈ ls, '.' ∉ l) (hne : ls ≠ []) :
    ['.'].intercalate ls = "***.".toList ++ host ↔ ls = "***".toList :: host.splitOn '.' := by
  have hstar : "***.".toList ++ host = ['.'].intercalate ("***".toList :: host.splitOn '.') := by
    obtain ⟨hd, tl, he⟩ := List.exists_cons_of_ne_nil (List.splitOnP_ne_nil (· == '.') host)
    conv_lhs => rw [← List.intercalate_splitOn host '.']
    rw [List.splitOn, he, intercalate_cons_cons]
    rfl
  rw [hstar, intercalate_dot_inj hls (List.forall_mem_cons.2 ⟨by decide,
    fun l hl => not_mem_of_mem_splitOn hl⟩) hne (List.cons_ne_nil _ _)]

/-- Both masks write the whole host after `***.` exactly for a two-label host in the
country-code branch of `maskHostTail`; every other host loses at least its first label. -/
theorem maskHost_whole_host (host : List Char) :
    (maskHostForURL host = "***.".toList ++ host ↔ CountryCodePair (host.splitOn '.')) ∧
      (maskHostForPlainDomain host = "***.".toList ++ host ↔
        CountryCodePair (host.splitOn '.')) := by
  by_cases h : 2 ≤ (host.splitOn '.').length
  · obtain ⟨hsuf, hne, hself⟩ := maskHostTail_eq_self_iff h
    have htail : ∀ l ∈ maskHostTail (host.splitOn '.'), '.' ∉ l :=
      fun l hl => not_mem_of_mem_splitOn (hsuf.subset hl)
    have hstars : ∀ k, ∀ l ∈ List.replicate k "***".toList ++ maskHostTail (host.splitOn '.'),
        '.' ∉ l := fun k l hl => by
      rcases List.mem_append.1 hl with hl | hl
      · rw [List.eq_of_mem_replicate hl]; decide
      · exact htail l hl
    rw [maskHostForURL_eq h, maskHostForPlainDomain_eq h, ← hself,
      intercalate_eq_stars_iff (List.forall_mem_cons.2 ⟨by decide, htail⟩) (List.cons_ne_nil _ _),
      intercalate_eq_stars_iff (hstars _) (by simp [hne]), List.cons_inj_right]
    refine ⟨Iff.rfl, fun he => hsuf.eq_of_length ?_, fun he => by simp [he]⟩
    have := congrArg List.length he
    simp only [List.length_append, List.length_replicate, List.length_cons] at this
    have := hsuf.length_le
    omega
  · have hcc : ¬ CountryCodePair (host.splitOn '.') := fun ⟨a, b, he, _⟩ => h (by simp [he])
    simp only [maskHostForURL, maskHostForPlainDomain, if_pos (not_le.1 h), hcc, iff_false]
    refine ⟨fun he => ?_, fun he => ?_⟩ <;> have := congrArg List.length he <;> simp at this
    omega

/-- The host `x.ai` is a country-code pair, and both masks write it whole after `***.`. -/
theorem maskHost_whole_host_x_ai :
    CountryCodePair ("x.ai".toList.splitOn '.') ∧
      maskHostForURL "x.ai".toList = "***.".toList ++ "x.ai".toList ∧
      maskHostForPlainDomain "x.ai".toList = "***.".toList ++ "x.ai".toList := by
  have hc : CountryCodePair ("x.ai".toList.splitOn '.') :=
    ⟨"x".toList, "ai".toList, by decide, by decide, by decide⟩
  exact ⟨hc, (maskHost_whole_host _).1.2 hc, (maskHost_whole_host _).2.2 hc⟩

end NewApi
