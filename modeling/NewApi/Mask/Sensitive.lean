import NewApi.Mask.Regex

/-!
# `MaskSensitiveInfo`: URLs, then domains, then IPv4 addresses; `MaskEmail`

`MaskSensitiveInfo` (`src/common/str.go`) masks an error message before it is logged or shown.
Its first pass rewrites every URL match with `url.Parse`: the scheme, the host through
`maskHostForURL`, `***` for each path segment and `key=***` for each query key.  A match that
does not parse, or has no host, is left as it is.  The second pass writes every domain match
through `maskHostForPlainDomain`, and the third writes every IPv4 match as `***.***.***.***`.

`url.Parse` and `url.ParseQuery` belong to Go's library, outside `src/`: they are parameters
(`UrlLib`), with the one property of `Parse` the results below need.

* `maskURL_spec`: what the URL pass writes for one match.
* `maskSensitiveInfo_unparsed_url`: a URL with a bad escape in its path keeps its path.
* `maskSensitiveInfo_no_ipv4`: no IPv4 address is left in the output.
* `maskEmail_keeps_domain`: `MaskEmail` keeps what follows the first `@`, and nothing before it.
* `maskSensitiveInfo_co_uk`, `maskSensitiveInfo_iterate`: masking is not idempotent; each
  masking of a country-code-style domain such as `co.uk` adds one more `***.`.
-/

namespace NewApi

/-! ## Go's `net/url` -/

/-- The fields of `url.URL` the URL pass reads. -/
structure URL where
  scheme : List Char
  host : List Char
  /-- `Path`, unescaped. -/
  path : List Char
  rawQuery : List Char

/-- `ishex`. -/
def isHex (c : Char) : Bool := c.isDigit || ('a' ≤ c && c ≤ 'f') || ('A' ≤ c && c ≤ 'F')

/-- Whether `url.unescape` rejects the text: a `%` not followed by two hex digits. -/
def hasBadEscape : List Char → Bool
  | '%' :: a :: b :: rest => !(isHex a && isHex b) || hasBadEscape rest
  | '%' :: _ => true
  | _ :: rest => hasBadEscape rest
  | [] => false

/-- `url.Parse` and `url.ParseQuery`. -/
structure UrlLib where
  /-- `url.Parse`: its error, or the URL. -/
  parse : List Char → Except String URL
  /-- `url.ParseQuery`: its error, or the keys of the map it returns, in the order a `range`
  over the map visits them. -/
  parseQuery : List Char → Except String (List (List Char))
  /-- `Parse` unescapes the user information, the host and the path, so it fails on an
  `http://` or `https://` URL with no query and no fragment in which a `%` is not followed by two
  hex digits. -/
  parse_badEscape : ∀ scheme rest : List Char,
    (scheme = "http".toList ∨ scheme = "https".toList) → '?' ∉ rest → '#' ∉ rest →
      hasBadEscape rest = true → ∃ e, parse (scheme ++ "://".toList ++ rest) = .error e

/-- A library whose `Parse` and `ParseQuery` reject everything. -/
def rejectingUrlLib : UrlLib :=
  ⟨fun _ => .error "", fun _ => .error "", fun _ _ _ _ _ _ => ⟨"", rfl⟩⟩

/-! ## The URL pass -/

/-- `strings.Trim(s, "/")`. -/
def trimSlashes (s : List Char) : List Char :=
  ((s.dropWhile (· == '/')).reverse.dropWhile (· == '/')).reverse

/-- The `// Mask path` block of the URL pass: what it appends to the result. -/
def maskPath (path : List Char) : List Char :=
  if path ≠ [] ∧ path ≠ ['/'] then
    let pathParts := (trimSlashes path).splitOn '/'
    let maskedPathParts := pathParts.map fun p => if p ≠ [] then "***".toList else []
    if 0 < maskedPathParts.length then ['/'] ++ ['/'].intercalate maskedPathParts else []
  else if path = ['/'] then ['/']
  else []

/-- The `// Mask query parameters` block of the URL pass: what it appends to the result. -/
def maskQuery (lib : UrlLib) (rawQuery : List Char) : List Char :=
  if rawQuery ≠ [] then
    match lib.parseQuery rawQuery with
    | .error _ => "?***".toList
    | .ok keys =>
      let maskedParams := keys.map (· ++ "=***".toList)
      if 0 < maskedParams.length then ['?'] ++ ['&'].intercalate maskedParams else []
  else []

/-- The function the URL pass applies to each match. -/
def maskURL (lib : UrlLib) (urlStr : List Char) : List Char :=
  match lib.parse urlStr with
  | .error _ => urlStr
  | .ok u =>
    if u.host = [] then urlStr
    else
      u.scheme ++ "://".toList ++ maskHostForURL u.host ++ maskPath u.path ++
        maskQuery lib u.rawQuery

/-- A masked path: nothing, `/`, or `/` and segments that are each `***` or empty. -/
def MaskedPath (p : List Char) : Prop :=
  p = [] ∨ p = ['/'] ∨
    ∃ segments : List Bool,
      p = '/' :: ['/'].intercalate (segments.map fun b => if b then "***".toList else [])

theorem maskedPath_maskPath (path : List Char) : MaskedPath (maskPath path) := by
  unfold maskPath MaskedPath
  dsimp only
  split_ifs
  · exact .inr (.inr ⟨((trimSlashes path).splitOn '/').map fun p => decide (p ≠ []),
      by simp [Function.comp_def]⟩)
  · exact .inl rfl
  · exact .inr (.inl rfl)
  · exact .inl rfl

/-- A masked query: nothing, `?***`, or `?` and the keys `ParseQuery` found, each with `=***`. -/
def MaskedQuery (lib : UrlLib) (rawQuery q : List Char) : Prop :=
  q = [] ∨ q = "?***".toList ∨
    ∃ keys, lib.parseQuery rawQuery = .ok keys ∧
      q = '?' :: ['&'].intercalate (keys.map (· ++ "=***".toList))

theorem maskedQuery_maskQuery (lib : UrlLib) (rawQuery : List Char) :
    MaskedQuery lib rawQuery (maskQuery lib rawQuery) := by
  unfold maskQuery MaskedQuery
  split_ifs
  · rcases lib.parseQuery rawQuery with e | keys
    · exact .inr (.inl rfl)
    · dsimp only
      split_ifs
      · exact .inr (.inr ⟨keys, rfl, rfl⟩)
      · exact .inl rfl
  · exact .inl rfl

/-- The URL pass. -/
def maskURLs (lib : UrlLib) (s : List Char) : List Char := replaceAll urlAt (maskURL lib) s

/-- The domain pass. -/
def maskDomains (s : List Char) : List Char := replaceAll domainAt maskHostForPlainDomain s

/-- The IPv4 pass, `ipPattern.ReplaceAllString(str, "***.***.***.***")`: the template holds no
`$`, so every match is replaced by that text. -/
def maskIPs (s : List Char) : List Char := replaceAll ipAt (fun _ => "***.***.***.***".toList) s

/-- `MaskSensitiveInfo`. -/
def maskSensitiveInfo (lib : UrlLib) (str : String) : String :=
  ⟨maskIPs (maskDomains (maskURLs lib str.toList))⟩

theorem maskURLs_of_not_mem {s : List Char} (h : ':' ∉ s) (lib : UrlLib) : maskURLs lib s = s :=
  replaceAll_of_forall (P := fun s => ':' ∉ s) (fun _ _ h hc => h (List.mem_cons_of_mem _ hc))
    (fun _ _ _ h => urlAt_eq_none h) s none h

theorem maskIPs_of_forall {s : List Char} (h : ∀ c ∈ s, c.isDigit = false) : maskIPs s = s :=
  replaceAll_of_forall (P := fun s => ∀ c ∈ s, c.isDigit = false)
    (fun _ _ h d hd => h d (List.mem_cons_of_mem _ hd))
    (fun prev c cs h => ipAt_cons (h c (List.mem_cons_self _ _)) prev cs) s none h

/-- The IPv4 pass leaves no address in what it writes: its replacement holds no digit. -/
theorem maskIPs_noMatch (s : List Char) : NoMatch ipAt none (maskIPs s) :=
  noMatch_replaceAllFunc (fun _ => by decide) (fun _ => by decide) s 0 none none (.inr ⟨rfl, rfl⟩)

example : maskIPs "10.0.0.1:8080, 1.2.3.4a".toList = "***.***.***.***:8080, 1.2.3.4a".toList := by
  decide

/-- A URL whose path holds a bad escape is not masked by the URL pass: `url.Parse` rejects it, so
its path reaches the output, where only the domain pass masks its host. -/
theorem maskSensitiveInfo_unparsed_url (lib : UrlLib) :
    maskSensitiveInfo lib "http://a.com/secret%zz" = "http://***.com/secret%zz" := by
  obtain ⟨e, he⟩ := lib.parse_badEscape "http".toList "a.com/secret%zz".toList (.inl rfl)
    (by decide) (by decide) (by decide)
  have hurl : maskURLs lib "http://a.com/secret%zz".toList = "http://a.com/secret%zz".toList := by
    have hm : maskURL lib "http://a.com/secret%zz".toList = "http://a.com/secret%zz".toList := by
      rw [maskURL, show "http://a.com/secret%zz".toList =
        "http".toList ++ "://".toList ++ "a.com/secret%zz".toList from rfl, he]
    show replaceAllFunc urlAt (maskURL lib) 0 none ("http://a.com/secret%zz".toList ++ []) = _
    rw [replaceAll_match (by decide) (by decide), hm]
    rfl
  rw [maskSensitiveInfo, hurl]
  decide

/-- No IPv4 address survives masking: the pattern matches at no position of
`MaskSensitiveInfo`'s output, so its IPv4 pass run once more changes nothing. -/
theorem maskSensitiveInfo_no_ipv4 (lib : UrlLib) (str : String) :
    NoMatch ipAt none (maskSensitiveInfo lib str).toList ∧
      maskIPs (maskSensitiveInfo lib str).toList = (maskSensitiveInfo lib str).toList :=
  ⟨maskIPs_noMatch _, replaceAll_of_noMatch (maskIPs_noMatch _)⟩

/-! ## Masking twice -/

theorem utf8Size_of_isAlpha {c : Char} (h : c.isAlpha = true) : c.utf8Size = 1 := by
  simp only [Char.isAlpha, Char.isUpper, Char.isLower, Bool.or_eq_true, Bool.and_eq_true,
    decide_eq_true_eq] at h
  have : c.val ≤ 127 := by
    rcases h with ⟨-, h⟩ | ⟨-, h⟩ <;> exact UInt32.le_trans h (by decide)
  simp [Char.utf8Size, this]

theorem isDigit_of_isAlpha {c : Char} (h : c.isAlpha = true) : c.isDigit = false := by
  simp only [Char.isAlpha, Char.isUpper, Char.isLower, Bool.or_eq_true, Bool.and_eq_true,
    decide_eq_true_eq] at h
  simp only [Char.isDigit, Bool.and_eq_false_iff, decide_eq_false_iff_not]
  rcases h with ⟨h, -⟩ | ⟨h, -⟩ <;>
    exact .inr fun h' => absurd (UInt32.le_trans h h') (by decide)

theorem utf8Len_of_isAlpha {l : List Char} (h : ∀ c ∈ l, c.isAlpha = true) :
    String.utf8Len l = l.length := by
  induction l with
  | nil => rfl
  | cons c l ih =>
    rw [String.utf8Len_cons, utf8Size_of_isAlpha (h c (List.mem_cons_self _ _)),
      ih fun d hd => h d (List.mem_cons_of_mem _ hd), List.length_cons]

section CountryCode

variable {a b : List Char} (ha : ∀ c ∈ a, c.isAlpha = true) (hb : ∀ c ∈ b, c.isAlpha = true)
  (ha₁ : a ≠ []) (ha₃ : a.length ≤ 3) (hb₂ : b.length = 2)

include ha hb ha₁ ha₃ hb₂ in
/-- The domain pattern matches such a domain as a whole. -/
theorem domainScan_countryCode : domainScan [] (a ++ '.' :: b) = some (a.length + 1 + b.length) := by
  have hlabel : ∀ {l : List Char}, (∀ c ∈ l, c.isAlpha = true) → ∀ c ∈ l, isLabelChar c = true :=
    fun hl c hc => by simp [isLabelChar, Char.isAlphanum, hl c hc]
  have hvalid : validLabel a = true := by
    obtain ⟨x, xs, rfl⟩ := List.exists_cons_of_ne_nil ha₁
    obtain ⟨z, hz⟩ : ∃ z, (x :: xs).getLast? = some z := ⟨_, List.getLast?_eq_getLast _ (by simp)⟩
    obtain ⟨ys, hys⟩ := List.getLast?_eq_some_iff.1 hz
    have hzm : z ∈ x :: xs := hys ▸ List.mem_append_right _ (List.mem_singleton_self z)
    simp only [List.length_cons] at ha₃
    simp [validLabel, hz, Char.isAlphanum, ha x (List.mem_cons_self _ _), ha z hzm]
    omega
  have htld : tldMatch b = some b.length := by
    rw [tldMatch, List.takeWhile_eq_self_iff.2 hb, List.drop_length]
    simp [hb₂]
  have hb0 : domainScan [] b = none := by simpa [domainScan] using domainScan_append (hlabel hb) [] []
  rw [domainScan_append (hlabel ha), List.append_nil, domainScan, if_neg (by decide),
    if_pos ⟨rfl, by rwa [List.reverse_reverse]⟩, hb0]
  simp [htld]

include ha hb ha₃ hb₂ in
/-- Such a domain is in the country-code branch, and kept whole. -/
theorem maskHostForPlainDomain_countryCode :
    maskHostForPlainDomain (a ++ '.' :: b) = "***.".toList ++ (a ++ '.' :: b) := by
  have hdot : ∀ {l : List Char}, (∀ c ∈ l, c.isAlpha = true) → '.' ∉ l :=
    fun hl h => absurd (hl '.' h) (by decide)
  have hsplit : (a ++ '.' :: b).splitOn '.' = [a, b] := by
    simpa [List.intercalate] using List.splitOn_intercalate [a, b] '.'
      (by simpa using ⟨hdot ha, hdot hb⟩) (by simp)
  apply maskHostForPlainDomain_of_countryCodePair
  rw [hsplit]
  exact ⟨a, b, rfl, by rw [utf8Len_of_isAlpha hb, hb₂], by rw [utf8Len_of_isAlpha ha]; exact ha₃⟩

include ha hb ha₁ ha₃ hb₂ in
/-- The domain pass walks over the stars in front of such a domain and adds one. -/
theorem maskDomains_stars (n : Nat) :
    maskDomains (stringsRepeat "***.".toList n ++ (a ++ '.' :: b)) =
      stringsRepeat "***.".toList (n + 1) ++ (a ++ '.' :: b) := by
  have hstar : ∀ c ∈ "***.".toList, c = '*' ∨ c = '.' := by decide
  have hstars : ∀ c ∈ stringsRepeat "***.".toList n, c = '*' ∨ c = '.' := fun c hc =>
    hstar c (by
      obtain ⟨l, hl, hcl⟩ := List.mem_flatten.1 hc
      rwa [← List.eq_of_mem_replicate hl])
  have hnone : ∀ prev c cs, (c = '*' ∨ c = '.') → domainAt prev (c :: cs) = none := by
    rintro prev c cs (rfl | rfl) <;>
      simp [domainAt, domainScan_nil_cons (show isLabelChar '*' = false by decide),
        domainScan_nil_cons (show isLabelChar '.' = false by decide)]
  set prev := (stringsRepeat "***.".toList n).getLast?.or none
  have hprev : prev.any isWordChar = false := by
    cases h : (stringsRepeat "***.".toList n).getLast? with
    | none => simp only [prev, h]; rfl
    | some c =>
      obtain ⟨ys, hys⟩ := List.getLast?_eq_some_iff.1 h
      simp only [prev, h]
      rcases hstars c (hys ▸ List.mem_append_right _ (List.mem_singleton_self c)) with rfl | rfl <;>
        rfl
  have hmatch : domainAt prev ((a ++ '.' :: b) ++ []) = some (a ++ '.' :: b).length := by
    rw [List.append_nil, domainAt, if_neg (by simp [hprev]),
      domainScan_countryCode ha hb ha₁ ha₃ hb₂]
    simp only [List.length_append, List.length_cons, Option.some.injEq]
    omega
  rw [maskDomains, replaceAll, replaceAll_append_of_none _ _ fun i hi => ?_,
    ← List.append_nil (a ++ '.' :: b), replaceAll_match (by simp) hmatch,
    maskHostForPlainDomain_countryCode ha hb ha₃ hb₂, stringsRepeat_succ]
  · simp [replaceAllFunc]
  · rw [List.drop_eq_getElem_cons hi, List.cons_append]
    exact hnone _ _ _ (hstars _ (List.getElem_mem hi))

include ha hb ha₁ ha₃ hb₂ in
/-- Each masking of such a domain puts one more `***.` in front of it. -/
theorem maskSensitiveInfo_stars (lib : UrlLib) (n : Nat) :
    maskSensitiveInfo lib ⟨stringsRepeat "***.".toList n ++ (a ++ '.' :: b)⟩ =
      ⟨stringsRepeat "***.".toList (n + 1) ++ (a ++ '.' :: b)⟩ := by
  have hchars : ∀ m, ∀ c ∈ stringsRepeat "***.".toList m ++ (a ++ '.' :: b),
      c = '*' ∨ c = '.' ∨ c.isAlpha = true := by
    intro m c hc
    rcases List.mem_append.1 hc with hc | hc
    · obtain ⟨l, hl, hcl⟩ := List.mem_flatten.1 hc
      rw [List.eq_of_mem_replicate hl] at hcl
      rcases (show ∀ c ∈ "***.".toList, c = '*' ∨ c = '.' by decide) c hcl with h | h
      · exact .inl h
      · exact .inr (.inl h)
    · simp only [List.mem_append, List.mem_cons] at hc
      rcases hc with hc | rfl | hc
      · exact .inr (.inr (ha c hc))
      · exact .inr (.inl rfl)
      · exact .inr (.inr (hb c hc))
  have hcolon : ':' ∉ stringsRepeat "***.".toList n ++ (a ++ '.' :: b) := fun h => by
    rcases hchars n ':' h with h | h | h <;> revert h <;> decide
  have hdigit : ∀ c ∈ stringsRepeat "***.".toList (n + 1) ++ (a ++ '.' :: b),
      c.isDigit = false := fun c hc => by
    rcases hchars (n + 1) c hc with rfl | rfl | h
    · rfl
    · rfl
    · exact isDigit_of_isAlpha h
  show (⟨maskIPs (maskDomains (maskURLs lib
    (stringsRepeat "***.".toList n ++ (a ++ '.' :: b))))⟩ : String) = _
  rw [maskURLs_of_not_mem hcolon lib, maskDomains_stars ha hb ha₁ ha₃ hb₂,
    maskIPs_of_forall hdigit]

include ha hb ha₁ ha₃ hb₂ in
/-- Masking is not idempotent: masking a domain of two ASCII-letter labels, the last of two
letters and the first of at most three, `n` times puts `n` times `***.` in front of it. -/
theorem maskSensitiveInfo_iterate (lib : UrlLib) (n : Nat) :
    (maskSensitiveInfo lib)^[n] ⟨a ++ '.' :: b⟩ =
      ⟨stringsRepeat "***.".toList n ++ (a ++ '.' :: b)⟩ := by
  induction n with
  | zero => rfl
  | succ n ih =>
    rw [Function.iterate_succ_apply', ih, maskSensitiveInfo_stars ha hb ha₁ ha₃ hb₂]

end CountryCode

/-- `co.uk` masked twice is `***.***.co.uk`. -/
theorem maskSensitiveInfo_iterate_co_uk :
    (∀ c ∈ "co".toList, c.isAlpha = true) ∧ (∀ c ∈ "uk".toList, c.isAlpha = true) ∧
      "co".toList ≠ [] ∧ "co".toList.length ≤ 3 ∧ "uk".toList.length = 2 ∧
      (maskSensitiveInfo rejectingUrlLib)^[2] ⟨"co".toList ++ '.' :: "uk".toList⟩ =
        ⟨stringsRepeat "***.".toList 2 ++ ("co".toList ++ '.' :: "uk".toList)⟩ :=
  ⟨by decide, by decide, by decide, by decide, rfl,
    maskSensitiveInfo_iterate (by decide) (by decide) (by decide) (by decide) (by decide) _ 2⟩

/-- Masking `co.uk` gives `***.co.uk`, and masking that again gives `***.***.co.uk`.  The text
holds no URL, so the URL library plays no part. -/
theorem maskSensitiveInfo_co_uk :
    maskSensitiveInfo rejectingUrlLib "co.uk" = "***.co.uk" ∧
      maskSensitiveInfo rejectingUrlLib (maskSensitiveInfo rejectingUrlLib "co.uk") =
        "***.***.co.uk" := by
  have h := maskSensitiveInfo_stars (a := "co".toList) (b := "uk".toList) (by decide) (by decide)
    (by decide) (by decide) (by decide) rejectingUrlLib
  exact ⟨h 0, (congrArg _ (h 0)).trans (h 1)⟩

/-! ## `MaskEmail` -/

/-- `MaskEmail`: only the text after the first `@` (`strings.Index`) is kept.  `@` is one byte, so
Go's byte index and slice cut the text at the same place as the character index does. -/
def maskEmail (email : String) : String :=
  if email = "" then "***masked***"
  else
    match email.toList.indexOf? '@' with
    | none => "***masked***"
    | some atIndex => "***@" ++ ⟨email.toList.drop (atIndex + 1)⟩

/-- `strings.Index` of one character: either the text does not hold it, or the index is where the
text is cut at its first occurrence. -/
theorem first_occurrence_split (c : Char) (l : List Char) :
    (l.indexOf? c = none ∧ c ∉ l) ∨
      ∃ loc dom, c ∉ loc ∧ l = loc ++ c :: dom ∧ l.indexOf? c = some loc.length := by
  induction l with
  | nil => exact .inl ⟨rfl, List.not_mem_nil _⟩
  | cons x xs ih =>
    by_cases hx : x = c
    · subst hx
      exact .inr ⟨[], xs, List.not_mem_nil _, rfl, by simp [List.indexOf?_cons]⟩
    · rcases ih with ⟨hn, hmem⟩ | ⟨loc, dom, hloc, rfl, hi⟩
      · exact .inl ⟨by simp [List.indexOf?_cons, hx, hn], by simp [Ne.symm hx, hmem]⟩
      · exact .inr ⟨x :: loc, dom, by simp [Ne.symm hx, hloc], rfl,
          by simp [List.indexOf?_cons, hx, hi]⟩

/-- `MaskEmail` writes `***@` and what follows the first `@`, and `***masked***` exactly when the
text holds no `@` (the empty text among them): what stands before the first `@` is dropped. -/
theorem maskEmail_keeps_domain (email : String) :
    ('@' ∉ email.toList ∧ maskEmail email = "***masked***") ∨
      ∃ loc dom, '@' ∉ loc ∧ email.toList = loc ++ '@' :: dom ∧
        maskEmail email = "***@" ++ ⟨dom⟩ := by
  rcases first_occurrence_split '@' email.toList with ⟨hn, hmem⟩ | ⟨loc, dom, hloc, hsplit, hi⟩
  · refine .inl ⟨hmem, ?_⟩
    rw [maskEmail]
    split_ifs
    · rfl
    · rw [hn]
  · have hne : email ≠ "" := fun he => by simp [he] at hsplit
    refine .inr ⟨loc, dom, hloc, hsplit, ?_⟩
    rw [maskEmail, if_neg hne, hi, hsplit]
    dsimp only
    rw [List.drop_append]
    rfl

example : maskEmail "a.b@c@d.com" = "***@c@d.com" := by decide

end NewApi
