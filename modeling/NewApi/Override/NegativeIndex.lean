import NewApi.Json.Gjson

/-!
# `processNegativeIndex`: negative array indices in override paths

Before each condition and each operation, `processNegativeIndex` in `src/unnamed/part_001`
rewrites negative array indices in a path against the current document:

    re := regexp.MustCompile(`\.(-\d+)`)
    for _, match := range re.FindAllStringSubmatch(path, -1) {
        arrayPath := strings.Split(path, negIndex)[0]   // minus a trailing "."
        ... gjson.Get(jsonStr, arrayPath) is an array of length L, 0 <= L + index < L ...
        result = strings.Replace(result, match[0], "."+strconv.Itoa(L+index), 1)
    }

It works on the text of the path.  The array a match indexes is looked up at the text of the
*original* path before the first occurrence of the match's digits, and the replacement
rewrites the first occurrence of `.-k` still in the result.  The specification resolves a path
segment by segment instead (`resolveSegments`).

* `processNegativeIndex_of_no_matches` and `processNegativeIndex_of_out_of_range`: a path
  without matches, or whose matches all index nothing in range, is left as it is.
* `processNegativeIndex_nested_arrays`: with two negative indices in one path, the second is
  resolved against the array of the first.
* `processNegativeIndex_single`: a path with one negative index segment is resolved as the
  specification says, provided the text of the index does not occur earlier in the path.
-/

namespace NewApi

/-! ## The regular expression `\.(-\d+)` -/

/-- Where a left-to-right search for `\.(-\d+)` stands: between matches, after a `.`, after
`.-`, or inside the digits of a match. -/
inductive ScanState where
  | idle
  | dot
  | dotMinus
  | digits (ds : List Char)

/-- The groups `-\d+` of the leftmost, non-overlapping matches of `\.(-\d+)`, with the digits
taken greedily (`FindAllStringSubmatch(path, -1)`). -/
def findNegIndexes : ScanState → List Char → List String
  | .digits ds, [] => [⟨'-' :: ds⟩]
  | _, [] => []
  | .idle, c :: cs => findNegIndexes (if c = '.' then .dot else .idle) cs
  | .dot, c :: cs =>
    findNegIndexes (if c = '-' then .dotMinus else if c = '.' then .dot else .idle) cs
  | .dotMinus, c :: cs =>
    findNegIndexes (if c.isDigit then .digits [c] else if c = '.' then .dot else .idle) cs
  | .digits ds, c :: cs =>
    if c.isDigit then findNegIndexes (.digits (ds ++ [c])) cs
    else ⟨'-' :: ds⟩ :: findNegIndexes (if c = '.' then .dot else .idle) cs

/-- The negative indices written in a path. -/
def negIndexes (path : String) : List String := findNegIndexes .idle path.toList

/-- `strconv.Atoi` of a match's group `-d…d`. -/
def negValue (negIndex : String) : Int := -(digitsValue (negIndex.toList.drop 1) : Int)

/-! ## Text operations -/

/-- `strings.Split(s, sep)[0]`: the text before the first occurrence of `sep`. -/
def textBefore (sep : List Char) : List Char → List Char
  | [] => []
  | c :: cs => if sep.isPrefixOf (c :: cs) then [] else c :: textBefore sep cs

/-- `strings.Replace(s, old, new, 1)`: the first occurrence of `old` replaced by `new`. -/
def replaceOnce (old new : List Char) : List Char → List Char
  | [] => []
  | c :: cs =>
    if old.isPrefixOf (c :: cs) then new ++ (c :: cs).drop old.length
    else c :: replaceOnce old new cs

/-- The text without one trailing `.`. -/
def dropTrailingDot (s : List Char) : List Char :=
  if s.getLast? = some '.' then s.dropLast else s

/-! ## `processNegativeIndex` -/

/-- The array path of a match: the original path before the first occurrence of its group. -/
def arrayPathOf (path negIndex : String) : String :=
  ⟨dropTrailingDot (textBefore negIndex.toList path.toList)⟩

/-- The index a match stands for, when gjson reads an array at its array path and the index is
in range. -/
def actualIndex (doc : JVal) (path negIndex : String) : Option Nat :=
  match gjsonGet doc (arrayPathOf path negIndex) with
  | some (.arr xs) =>
    let i := (xs.length : Int) + negValue negIndex
    if 0 ≤ i ∧ i < xs.length then some i.toNat else none
  | _ => none

/-- One turn of the loop: the first `.-k` left in `result` rewritten to the index it stands
for. -/
def resolveNegIndex (doc : JVal) (path result negIndex : String) : String :=
  match actualIndex doc path negIndex with
  | some i => ⟨replaceOnce ('.' :: negIndex.toList) ('.' :: (toString i).toList) result.toList⟩
  | none => result

/-- `processNegativeIndex(jsonStr, path)`. -/
def processNegativeIndex (doc : JVal) (path : String) : String :=
  (negIndexes path).foldl (resolveNegIndex doc path) path

/-! ## The specification's resolution -/

/-- A segment `-k` with `k ≥ 1`, and its `k`. -/
def negSegment (s : String) : Option Nat :=
  match s.toList with
  | '-' :: ds => if ds ≠ [] ∧ ds.all Char.isDigit ∧ 0 < digitsValue ds then
      some (digitsValue ds) else none
  | _ => none

/-- Modelled from the spec: negative indices resolve segment by segment, each `-k` after the
first segment against the array its already resolved prefix denotes, when that array has at
least `k` elements. -/
def resolveSegments (doc : JVal) : List String → List String → List String
  | _, [] => []
  | pre, s :: ss =>
    let s' := match pre, negSegment s with
      | _ :: _, some k => match get doc pre with
        | some (.arr xs) => if k ≤ xs.length then toString (xs.length - k) else s
        | _ => s
      | _, _ => s
    s' :: resolveSegments doc (pre ++ [s']) ss

/-- Modelled from the spec: the path with its negative indices resolved. -/
def specResolve (doc : JVal) (path : String) : String :=
  ".".intercalate (resolveSegments doc [] (pathComponents path))

/-! ## Paths left as they are -/

/-- A path without negative indices is left as it is. -/
theorem processNegativeIndex_of_no_matches {doc : JVal} {path : String}
    (h : negIndexes path = []) : processNegativeIndex doc path = path := by
  simp [processNegativeIndex, h]

/-- A path without a `.` has no negative index. -/
theorem findNegIndexes_idle_of_not_mem : ∀ {cs : List Char}, '.' ∉ cs →
    findNegIndexes .idle cs = []
  | [], _ => rfl
  | c :: cs, h => by
    have hc : c ≠ '.' := fun hc => h (hc ▸ List.mem_cons_self _ _)
    rw [findNegIndexes, if_neg hc, findNegIndexes_idle_of_not_mem fun h' => h (List.mem_cons_of_mem _ h')]

/-- A path whose negative indices all index nothing (no array at the array path, or an index
out of its range) is left as it is. -/
theorem processNegativeIndex_of_out_of_range {doc : JVal} {path : String}
    (h : ∀ m ∈ negIndexes path, actualIndex doc path m = none) :
    processNegativeIndex doc path = path := by
  unfold processNegativeIndex
  generalize negIndexes path = ms at h
  induction ms with
  | nil => rfl
  | cons m ms ih =>
    rw [List.forall_mem_cons] at h
    simp only [List.foldl_cons, resolveNegIndex, h.1]
    exact ih h.2

/-! ## Two negative indices in one path -/

/-- The failing input: in `a.-1.-1` over `{"a":[[1,2,3]]}` both matches are `-1`, the array
path of both is the text before the first `-1`, `a`, so the inner index is resolved against
the outer array's length `1`: the code gives `a.0.0`, the segment-wise resolution `a.0.2`. -/
theorem processNegativeIndex_nested_arrays :
    let doc : JVal := .obj [("a", .arr [.arr [.num 1, .num 2, .num 3]])]
    processNegativeIndex doc "a.-1.-1" = "a.0.0" ∧ specResolve doc "a.-1.-1" = "a.0.2" := by
  decide

/-! ## The scan of a path with one negative index -/

/-- A scan in the digits of a match always reports it. -/
theorem findNegIndexes_digits_ne_nil : ∀ (ds l : List Char), findNegIndexes (.digits ds) l ≠ []
  | _, [] => by simp [findNegIndexes]
  | ds, c :: cs => by
    simp only [findNegIndexes]
    split
    · exact findNegIndexes_digits_ne_nil _ cs
    · simp

/-- Outside a match, a character only moves the scan to another state. -/
theorem findNegIndexes_cons_of_not_digits {s : ScanState} (hs : ∀ ds, s ≠ .digits ds)
    (c : Char) :
    ∃ s', ∀ l, findNegIndexes s (c :: l) = findNegIndexes s' l := by
  cases s with
  | idle => exact ⟨_, fun _ => rfl⟩
  | dot => exact ⟨_, fun _ => rfl⟩
  | dotMinus => exact ⟨_, fun _ => rfl⟩
  | digits ds => exact absurd rfl (hs ds)

/-- A scan that reports nothing on `q` ends outside a match, from where it reads the rest. -/
theorem findNegIndexes_append_of_nil : ∀ {s : ScanState} {q : List Char},
    (∀ ds, s ≠ .digits ds) → findNegIndexes s q = [] →
    ∃ t, (∀ ds, t ≠ .digits ds) ∧ ∀ l, findNegIndexes s (q ++ l) = findNegIndexes t l
  | s, [], hs, _ => ⟨s, hs, fun _ => rfl⟩
  | s, c :: q, hs, h => by
    obtain ⟨s', hs'⟩ := findNegIndexes_cons_of_not_digits hs c
    rw [hs'] at h
    have hnd : ∀ ds, s' ≠ .digits ds := by
      rintro ds rfl
      exact findNegIndexes_digits_ne_nil ds q h
    obtain ⟨t, ht, htl⟩ := findNegIndexes_append_of_nil hnd h
    exact ⟨t, ht, fun l => by rw [List.cons_append, hs', htl]⟩

theorem findNegIndexes_dot_of_not_digits {t : ScanState} (ht : ∀ ds, t ≠ .digits ds)
    (l : List Char) : findNegIndexes t ('.' :: l) = findNegIndexes .dot l := by
  cases t with
  | digits ds => exact absurd rfl (ht ds)
  | _ => rfl

theorem findNegIndexes_digits_append {acc : List Char} :
    ∀ {ds : List Char} (r : List Char), (∀ c ∈ ds, c.isDigit = true) →
      findNegIndexes (.digits acc) (ds ++ r) = findNegIndexes (.digits (acc ++ ds)) r
  | [], _, _ => by rw [List.nil_append, List.append_nil]
  | d :: ds, r, h => by
    rw [List.cons_append, findNegIndexes, if_pos (h d (List.mem_cons_self _ _)),
      findNegIndexes_digits_append r fun c hc => h c (List.mem_cons_of_mem _ hc)]
    simp

theorem findNegIndexes_digits_end {acc r : List Char} (hr : r = [] ∨ r.head? = some '.')
    (hr' : findNegIndexes .idle r = []) : findNegIndexes (.digits acc) r = [⟨'-' :: acc⟩] := by
  rcases hr with rfl | hr
  · rfl
  · obtain ⟨r, rfl⟩ : ∃ r', r = '.' :: r' := by
      cases r with
      | nil => cases hr
      | cons c r => cases hr; exact ⟨r, rfl⟩
    exact congrArg _ hr'

/-- The scan of a path with one negative index `.-ds` followed by nothing or by a `.` and text
without negative indices. -/
theorem findNegIndexes_single {q ds r : List Char} (hq : findNegIndexes .idle q = [])
    (hds : ds ≠ []) (hdig : ∀ c ∈ ds, c.isDigit = true) (hr : r = [] ∨ r.head? = some '.')
    (hr' : findNegIndexes .idle r = []) :
    findNegIndexes .idle (q ++ '.' :: '-' :: (ds ++ r)) = [⟨'-' :: ds⟩] := by
  obtain ⟨t, ht, htl⟩ := findNegIndexes_append_of_nil (s := .idle) (fun _ h => nomatch h) hq
  obtain ⟨d, ds', rfl⟩ := List.exists_cons_of_ne_nil hds
  have hd : d.isDigit = true := hdig d (List.mem_cons_self _ _)
  rw [htl, findNegIndexes_dot_of_not_digits ht, List.cons_append]
  simp only [findNegIndexes, if_pos rfl, hd, if_true]
  rw [findNegIndexes_digits_append r fun c hc => hdig c (List.mem_cons_of_mem _ hc),
    findNegIndexes_digits_end hr hr']
  rfl

/-! ## The text before and after the match -/

/-- A text whose only `.` is its first character, and which does not occur in `q`, starts
nowhere inside `q` when `q` is followed by a text that begins with `.`. -/
theorem not_prefix_of_suffix {pat q l : List Char} (hpat : '.' ∉ pat.tail)
    (hl : l.head? = some '.') (hocc : ¬ pat <:+: q) :
    ∀ t, t ≠ [] → t <:+ q → ¬ pat <+: t ++ l := by
  intro t ht hts hp
  rcases List.prefix_or_prefix_of_prefix hp (List.prefix_append t l) with h | ⟨u, rfl⟩
  · exact hocc (h.isInfix.trans hts.isInfix)
  · have hu : u <+: l := (List.prefix_append_right_inj t).1 hp
    cases u with
    | nil => exact hocc (by simpa using hts.isInfix)
    | cons x u =>
      have hx : x = '.' := by
        obtain ⟨w, rfl⟩ := hu
        simpa using hl
      obtain ⟨c, t, rfl⟩ := List.exists_cons_of_ne_nil ht
      exact hpat (by simp [hx])

/-- A search that finds nothing starting inside `q` passes over it. -/
theorem textBefore_append {sep l : List Char} :
    ∀ {q : List Char}, (∀ t, t ≠ [] → t <:+ q → ¬ sep <+: t ++ l) →
      textBefore sep (q ++ l) = q ++ textBefore sep l
  | [], _ => rfl
  | c :: q, h => by
    have hc : sep.isPrefixOf (c :: q ++ l) = false := Bool.eq_false_iff.2 fun e =>
      h (c :: q) (List.cons_ne_nil _ _) (List.suffix_refl _) (List.isPrefixOf_iff_prefix.1 e)
    rw [List.cons_append, textBefore, ← List.cons_append, hc, if_neg Bool.false_ne_true,
      textBefore_append fun t ht hts => h t ht (hts.trans (List.suffix_cons c q))]
    rfl

theorem replaceOnce_append {old new l : List Char} :
    ∀ {q : List Char}, (∀ t, t ≠ [] → t <:+ q → ¬ old <+: t ++ l) →
      replaceOnce old new (q ++ l) = q ++ replaceOnce old new l
  | [], _ => rfl
  | c :: q, h => by
    have hc : old.isPrefixOf (c :: q ++ l) = false := Bool.eq_false_iff.2 fun e =>
      h (c :: q) (List.cons_ne_nil _ _) (List.suffix_refl _) (List.isPrefixOf_iff_prefix.1 e)
    rw [List.cons_append, replaceOnce, ← List.cons_append, hc, if_neg Bool.false_ne_true,
      replaceOnce_append fun t ht hts => h t ht (hts.trans (List.suffix_cons c q))]
    rfl

/-- `strings.Replace(s, old, new, 1)` changes nothing in a text without `old`. -/
theorem replaceOnce_of_no_occurrence {old new q : List Char} (h : ¬ old <:+: q) :
    replaceOnce old new q = q := by
  have := @replaceOnce_append old new [] q fun t _ hts hp =>
    h ((List.append_nil t ▸ hp).isInfix.trans hts.isInfix)
  simpa [replaceOnce] using this

/-- A text that starts with `old` has that occurrence replaced. -/
theorem replaceOnce_at_start {old new : List Char} (t : List Char) (h : old ≠ []) :
    replaceOnce old new (old ++ t) = new ++ t := by
  obtain ⟨c, cs, rfl⟩ := List.exists_cons_of_ne_nil h
  simp [replaceOnce, List.isPrefixOf_iff_prefix]

theorem toList_single (q ds r : String) :
    (q ++ ".-" ++ ds ++ r).toList = q.toList ++ '.' :: '-' :: (ds.toList ++ r.toList) := by
  simp [String.toList]

theorem dot_not_mem_of_digits {ds : List Char} (hdig : ∀ c ∈ ds, c.isDigit = true) :
    '.' ∉ ds :=
  fun h => absurd (hdig '.' h) (by decide)

/-- The array path of the one match: the text before `.-ds`. -/
theorem arrayPathOf_single {q ds r : String} (hdig : ∀ c ∈ ds.toList, c.isDigit = true)
    (hocc : ¬ ('-' :: ds.toList) <:+: q.toList) :
    arrayPathOf (q ++ ".-" ++ ds ++ r) ⟨'-' :: ds.toList⟩ = q := by
  have hp := toList_single q ds r
  have hsep : textBefore ('-' :: ds.toList) ('.' :: '-' :: (ds.toList ++ r.toList)) = ['.'] := by
    simp [textBefore, List.isPrefixOf_iff_prefix]
  show String.mk (dropTrailingDot (textBefore ('-' :: ds.toList) _)) = q
  rw [hp, textBefore_append (@not_prefix_of_suffix ('-' :: ds.toList) q.toList
    ('.' :: '-' :: (ds.toList ++ r.toList)) (dot_not_mem_of_digits hdig) rfl hocc), hsep]
  simp [dropTrailingDot]

/-- The one match rewritten: `.-ds` becomes `.n`. -/
theorem replaceOnce_single {q ds r : String} (n : String)
    (hdig : ∀ c ∈ ds.toList, c.isDigit = true)
    (hocc : ¬ ('-' :: ds.toList) <:+: q.toList) :
    replaceOnce ('.' :: '-' :: ds.toList) ('.' :: n.toList) (q ++ ".-" ++ ds ++ r).toList =
      (q ++ "." ++ n ++ r).toList := by
  have hp := toList_single q ds r
  have hocc' : ¬ ('.' :: '-' :: ds.toList) <:+: q.toList := fun h =>
    hocc ((List.suffix_cons _ _).isInfix.trans h)
  have hpat : '.' ∉ ('.' :: '-' :: ds.toList).tail :=
    List.not_mem_cons_of_ne_of_not_mem (by decide) (dot_not_mem_of_digits hdig)
  rw [hp, replaceOnce_append (@not_prefix_of_suffix _ q.toList
    ('.' :: '-' :: (ds.toList ++ r.toList)) hpat rfl hocc')]
  simp [replaceOnce, List.isPrefixOf_iff_prefix, String.toList]

/-! ## One negative index -/

/-- A path with one negative index, a segment `.-k` followed by nothing or by more segments, is
resolved as the specification says when `1 ≤ k ≤ L` for the array of length `L` that the
segments before it name, and the text `-k` does not occur before the segment: `-k` becomes the
index `L - k`. -/
theorem processNegativeIndex_single {doc : JVal} {q ds r : String} {xs : List JVal}
    (hq : negIndexes q = []) (hds : ds ≠ "") (hdig : ∀ c ∈ ds.toList, c.isDigit = true)
    (hr : r = "" ∨ ∃ r', r = "." ++ r') (hr' : negIndexes r = [])
    (hocc : ¬ ('-' :: ds.toList) <:+: q.toList)
    (harr : gjsonGet doc q = some (.arr xs))
    (hk : 1 ≤ digitsValue ds.toList ∧ digitsValue ds.toList ≤ xs.length) :
    processNegativeIndex doc (q ++ ".-" ++ ds ++ r) =
      q ++ "." ++ toString (xs.length - digitsValue ds.toList) ++ r := by
  have hneg : negIndexes (q ++ ".-" ++ ds ++ r) = [⟨'-' :: ds.toList⟩] := by
    rw [negIndexes, toList_single]
    refine findNegIndexes_single hq (fun h => hds (String.ext h)) hdig ?_ hr'
    rcases hr with rfl | ⟨r', rfl⟩
    · exact .inl rfl
    · exact .inr rfl
  have hidx : actualIndex doc (q ++ ".-" ++ ds ++ r) ⟨'-' :: ds.toList⟩ =
      some (xs.length - digitsValue ds.toList) := by
    have hd : (String.mk ('-' :: ds.toList)).toList.drop 1 = ds.toList := rfl
    simp only [actualIndex, arrayPathOf_single hdig hocc, harr, negValue, hd]
    rw [if_pos (by omega)]
    congr 1
    omega
  simp only [processNegativeIndex, hneg, List.foldl, resolveNegIndex, hidx]
  exact String.ext (replaceOnce_single _ hdig hocc)

/-- `messages.-1.c` names the last message's `c`. -/
theorem processNegativeIndex_single_last_message :
    processNegativeIndex (.obj [("messages", .arr [.obj [("c", .num 1)], .obj [("c", .num 2)]])])
        ("messages" ++ ".-" ++ "1" ++ ".c") =
      "messages" ++ "." ++ toString (2 - digitsValue "1".toList) ++ ".c" :=
  @processNegativeIndex_single
    (.obj [("messages", .arr [.obj [("c", .num 1)], .obj [("c", .num 2)]])])
    "messages" "1" ".c" [.obj [("c", .num 1)], .obj [("c", .num 2)]] (by decide) (by decide)
    (by decide) (.inr ⟨"c", by decide⟩) (by decide) (by decide) (by decide) (by decide)

end NewApi
