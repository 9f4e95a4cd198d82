import Mathlib

/-!
# Numbers: exact decimals and Go's `float64`

A request body writes its numbers in decimal.  The engine never keeps that decimal: gjson reads a
number's text with `strconv.ParseFloat(raw, 64)` into `Result.Num`, `encoding/json` decodes a
number into a `float64`, and both write a `float64` back as the fewest digits that read back as
it.  This file models those conversions.

* `JNum`: a number of the body, by its exact decimal value.
* `JNum.toFloat64`: `strconv.ParseFloat(s, 64)`, the binary64 value nearest the decimal, ties to
  even, or an infinity past the largest finite value.  A finite binary64 value is a finite
  decimal, so it is a `JNum` again (`JNum.ofBinary`).
* `JNum.shortest`: the digits of `strconv.FormatFloat(f, 'f', -1, 64)`: the fewest significant
  digits that read back as `f`, and of two such the nearer.
* `JNum.goNum`: a number decoded into a `float64` and written again.

The rounding is exact integer arithmetic on the magnitude `a / d` in units of `2 ^ -1074`, the
smallest subnormal: `ulpExp` finds the exponent of the last place, `rne` rounds the quotient to
nearest with ties to even, and `roundMag` carries into the next binade and checks the range.

* `toFloat64_ofBinary`: a binary64 value rounds to itself, so `toFloat64_toFloat64`;
* `toFloat64_shortest`: the shortest digits read back as the value;
* `goNum_goNum`, `toFloat64_goNum`: Go's decode and re-encode changes a number at most once, and
  never the `float64` it reads as.

A negative zero is not told apart from zero: `-0` in a body is written back as `0`.
-/

namespace NewApi

/-! ## Decimals -/

/-- A JSON number: the decimal `mantissa / 10 ^ scale`, with no trailing zero after the point,
so that two numbers are equal exactly when their values are. -/
structure JNum where
  mantissa : Int
  scale : Nat
  canonical : scale = 0 ∨ ¬ (10 : Int) ∣ mantissa
  deriving DecidableEq, Repr

/-- An IEEE 754 binary64 value as `strconv.ParseFloat` returns one for a decimal: finite, given
by its exact value, or an infinity of either sign. -/
inductive Float64 where
  | finite (x : JNum)
  | inf (neg : Bool)
  deriving DecidableEq, Repr

namespace JNum

/-- An integer. -/
def ofInt (n : Int) : JNum := ⟨n, 0, .inl rfl⟩

instance (n : Nat) : OfNat JNum n := ⟨ofInt n⟩

/-- `<` on values. -/
instance : LT JNum := ⟨fun a b => a.mantissa * 10 ^ b.scale < b.mantissa * 10 ^ a.scale⟩

/-- `≤` on values. -/
instance : LE JNum := ⟨fun a b => a.mantissa * 10 ^ b.scale ≤ b.mantissa * 10 ^ a.scale⟩

instance (a b : JNum) : Decidable (a < b) := inferInstanceAs (Decidable (_ < _))
instance (a b : JNum) : Decidable (a ≤ b) := inferInstanceAs (Decidable (_ ≤ _))

/-- The shortest decimal text of the number, which is what `strconv.FormatFloat(f, 'f', -1, 64)`
writes for a `float64` whose shortest digits it is. -/
def text (n : JNum) : String :=
  let digits := (toString n.mantissa.natAbs).toList
  let padded := List.replicate (n.scale + 1 - digits.length) '0' ++ digits
  let point := padded.length - n.scale
  String.mk ((if n.mantissa < 0 then ['-'] else []) ++ padded.take point ++
    (if n.scale = 0 then [] else '.' :: padded.drop point))

/-- The decimal `m / 10 ^ s` with the trailing zeros of its fraction taken off. -/
def normalize (m : Int) : Nat → JNum
  | 0 => ⟨m, 0, .inl rfl⟩
  | s + 1 =>
    if m = 0 then ⟨0, 0, .inl rfl⟩
    else if h : (10 : Int) ∣ m then normalize (m / 10) s else ⟨m, s + 1, .inr h⟩

/-- `b ^ k`, as powers of `b ^ 256`, so that a proof by evaluation computes it for a large `k`. -/
def powFast (b k : Nat) : Nat := (b ^ 256) ^ (k / 256) * b ^ (k % 256)

@[simp] theorem powFast_eq (b k : Nat) : powFast b k = b ^ k := by
  rw [powFast, ← pow_mul, ← pow_add, Nat.div_add_mod]

/-- The decimal `m · 10 ^ e`, for an exponent of either sign. -/
def ofDecimal (m : Int) (e : Int) : JNum :=
  if 0 ≤ e then ⟨m * (powFast 10 e.toNat : Nat), 0, .inl rfl⟩ else normalize m (-e).toNat

theorem normalize_value : ∀ (m : Int) (s : Nat),
    (normalize m s).mantissa * 10 ^ s = m * 10 ^ (normalize m s).scale
  | m, 0 => by simp [normalize]
  | m, s + 1 => by
    unfold normalize
    split_ifs with h0 h
    · simp [h0]
    · obtain ⟨q, rfl⟩ := h
      have hq : 10 * q / 10 = q := by omega
      rw [hq, pow_succ, ← mul_assoc, normalize_value q s]
      ring
    · rfl

@[simp] theorem normalize_zero : ∀ s : Nat, normalize 0 s = 0
  | 0 => rfl
  | _ + 1 => by simp only [normalize, if_true]; rfl

/-! ## Rounding to binary64 -/

/-- The position of the highest set bit of `n`, for `n < 2 ^ 2 ^ j`, found by halving the range
`j` times. -/
def log2Within : Nat → Nat → Nat
  | 0, _ => 0
  | j + 1, n => if n >>> 2 ^ j = 0 then log2Within j n else 2 ^ j + log2Within j (n >>> 2 ^ j)

/-- The position of the highest set bit of `n`, 64 bits at a time for the first `f` words, and
by `Nat.log2` past them. -/
def log2Words : Nat → Nat → Nat
  | 0, n => n.log2
  | f + 1, n => if n >>> 64 = 0 then log2Within 6 n else 64 + log2Words f (n >>> 64)

/-- `Nat.log2`, in a form that a proof by evaluation runs: exactly for numbers of up to 4096
bits, which holds every number this model rounds in practice. -/
def log2 (n : Nat) : Nat := log2Words 64 n

/-- Round to nearest, ties to even: the integer nearest `a / d`, the even one of two. -/
def rne (a d : Nat) : Nat :=
  if 2 * (a % d) < d then a / d
  else if d < 2 * (a % d) then a / d + 1
  else if a / d % 2 = 0 then a / d else a / d + 1

/-- The exponent of the last place of a binary64 value of magnitude `a / d` (in units of
`2 ^ -1074`): the binade of `a / d` less the 52 bits of the fraction, and `0` for a subnormal.
The binade is `log2 a - log2 d` or one less. -/
def ulpExp (a d : Nat) : Nat :=
  let k := log2 a - log2 d
  (if d <<< k ≤ a then k else k - 1) - 52

/-- `p` is the exponent of the last place of `a / d`: a significand of 53 bits at most, and of
53 bits exactly unless `p` is the least exponent. -/
def UlpSpec (a d p : Nat) : Prop := a < d * 2 ^ (p + 53) ∧ (p = 0 ∨ d * 2 ^ (p + 52) ≤ a)

/-- The binary64 magnitude nearest `a / d`, as a significand and the exponent of its last place,
or nothing past the largest finite value `(2 ^ 53 - 1) · 2 ^ 971`. -/
def roundMag (a d : Nat) : Option (Nat × Nat) :=
  let p := ulpExp a d
  let m := rne a (d <<< p)
  if m = 2 ^ 53 then (if p + 1 ≤ 2045 then some (2 ^ 52, p + 1) else none)
  else if p ≤ 2045 then some (m, p) else none

/-- A significand and the exponent of its last place that are a binary64 value. -/
def Valid (m p : Nat) : Prop := m < 2 ^ 53 ∧ (2 ^ 52 ≤ m ∨ p = 0) ∧ p ≤ 2045

/-- The binary64 value `± m · 2 ^ (p - 1074)` as a decimal: an integer from `p = 1074` on, and
below that `m · 5 ^ (1074 - p)` units of `10 ^ (p - 1074)`. -/
def ofBinary (neg : Bool) (m p : Nat) : JNum :=
  let s : Int := if neg then -1 else 1
  if 1074 ≤ p then ⟨s * (m <<< (p - 1074) : Nat), 0, .inl rfl⟩
  else normalize (s * (m * powFast 5 (1074 - p) : Nat)) (1074 - p)

/-- `strconv.ParseFloat(s, 64)` of a number with this value. -/
def toFloat64 (n : JNum) : Float64 :=
  match roundMag (n.mantissa.natAbs <<< 1074) (powFast 10 n.scale) with
  | some (m, p) => .finite (ofBinary (decide (n.mantissa < 0)) m p)
  | none => .inf (decide (n.mantissa < 0))

/-! ## The highest bit -/

/-- The highest bit of `n` is `k` above the highest bit of `n / 2 ^ k`. -/
theorem log2_bounds_of_div {n k L : Nat} (h₁ : 2 ^ L ≤ n / 2 ^ k) (h₂ : n / 2 ^ k < 2 ^ (L + 1)) :
    2 ^ (k + L) ≤ n ∧ n < 2 ^ (k + L + 1) := by
  have hK : 0 < 2 ^ k := Nat.two_pow_pos _
  have hd := Nat.div_add_mod n (2 ^ k)
  have hm := Nat.mod_lt n hK
  constructor
  · calc 2 ^ (k + L) = 2 ^ k * 2 ^ L := pow_add _ _ _
      _ ≤ 2 ^ k * (n / 2 ^ k) := Nat.mul_le_mul_left _ h₁
      _ ≤ n := by omega
  · calc n < 2 ^ k * (n / 2 ^ k + 1) := by rw [mul_add]; omega
      _ ≤ 2 ^ k * 2 ^ (L + 1) := Nat.mul_le_mul_left _ h₂
      _ = 2 ^ (k + L + 1) := by rw [← pow_add, add_assoc]

theorem log2Within_spec : ∀ {j n : Nat}, n ≠ 0 → n < 2 ^ 2 ^ j →
    2 ^ log2Within j n ≤ n ∧ n < 2 ^ (log2Within j n + 1)
  | 0, n, h0, hn => by simp [log2Within] at hn ⊢; omega
  | j + 1, n, h0, hn => by
    have hK : 0 < 2 ^ 2 ^ j := Nat.two_pow_pos _
    unfold log2Within
    rw [Nat.shiftRight_eq_div_pow]
    split
    · rename_i h
      rw [Nat.div_eq_zero_iff hK] at h
      exact log2Within_spec h0 h
    · rename_i h
      have hlt : n / 2 ^ 2 ^ j < 2 ^ 2 ^ j := by
        rw [Nat.div_lt_iff_lt_mul hK, ← pow_add, ← two_mul, ← pow_succ']; exact hn
      obtain ⟨h₁, h₂⟩ := log2Within_spec h hlt
      exact log2_bounds_of_div h₁ h₂

theorem log2Words_spec : ∀ {f n : Nat}, n ≠ 0 →
    2 ^ log2Words f n ≤ n ∧ n < 2 ^ (log2Words f n + 1)
  | 0, n, h0 => ⟨Nat.log2_self_le h0, Nat.lt_log2_self⟩
  | f + 1, n, h0 => by
    unfold log2Words
    rw [Nat.shiftRight_eq_div_pow]
    split
    · rename_i h
      rw [Nat.div_eq_zero_iff (Nat.two_pow_pos _)] at h
      exact log2Within_spec h0 h
    · rename_i h
      obtain ⟨h₁, h₂⟩ := log2Words_spec (f := f) h
      exact log2_bounds_of_div h₁ h₂

theorem log2_spec {n : Nat} (h0 : n ≠ 0) : 2 ^ log2 n ≤ n ∧ n < 2 ^ (log2 n + 1) :=
  log2Words_spec h0

/-! ## Round to nearest -/

theorem rne_cases (a d : Nat) :
    (rne a d = a / d ∧ 2 * (a % d) ≤ d) ∨ (rne a d = a / d + 1 ∧ d ≤ 2 * (a % d)) := by
  unfold rne
  split
  · exact .inl ⟨rfl, by omega⟩
  · split
    · exact .inr ⟨rfl, by omega⟩
    · split
      · exact .inl ⟨rfl, by omega⟩
      · exact .inr ⟨rfl, by omega⟩

theorem rne_mul (m : Nat) {c : Nat} (hc : 0 < c) : rne (m * c) c = m := by
  simp [rne, Nat.mul_mod_left, Nat.mul_div_cancel _ hc, hc]

/-! ## The exponent of the last place -/

theorem ulpExp_spec {a d : Nat} (ha : a ≠ 0) (hd : d ≠ 0) : UlpSpec a d (ulpExp a d) := by
  obtain ⟨la₁, la₂⟩ := log2_spec ha
  obtain ⟨ld₁, ld₂⟩ := log2_spec hd
  unfold ulpExp UlpSpec
  simp only [Nat.shiftLeft_eq]
  generalize log2 a = la at *
  generalize log2 d = ld at *
  -- the binade `b` of `a / d`: `a < d * 2 ^ (b + 1)`, and `d * 2 ^ b ≤ a` from 52 bits on
  obtain ⟨b, hb, hup, hlo⟩ : ∃ b, b = (if d * 2 ^ (la - ld) ≤ a then la - ld else la - ld - 1) ∧
      a < d * 2 ^ (b + 1) ∧ (52 ≤ b → d * 2 ^ b ≤ a) := by
    refine ⟨_, rfl, ?_⟩
    by_cases hle : ld ≤ la
    · have hpow : 2 ^ la = 2 ^ ld * 2 ^ (la - ld) := by rw [← pow_add]; congr 1; omega
      split
      · refine ⟨?_, fun _ => ‹_›⟩
        calc a < 2 ^ (la + 1) := la₂
          _ = 2 ^ ld * 2 ^ (la - ld + 1) := by rw [← pow_add]; congr 1; omega
          _ ≤ d * 2 ^ (la - ld + 1) := Nat.mul_le_mul_right _ ld₁
      · rename_i h
        refine ⟨?_, fun h52 => ?_⟩
        · by_cases hk : la - ld = 0
          · rw [hk] at h ⊢; simp at h ⊢; omega
          · rw [Nat.sub_add_cancel (by omega)]; omega
        · calc d * 2 ^ (la - ld - 1) ≤ 2 ^ (ld + 1) * 2 ^ (la - ld - 1) :=
                Nat.mul_le_mul_right _ ld₂.le
            _ = 2 ^ la := by rw [← pow_add]; congr 1; omega
            _ ≤ a := la₁
    · have hsub : la - ld = 0 := by omega
      have had : a < d := by
        calc a < 2 ^ (la + 1) := la₂
          _ ≤ 2 ^ ld := Nat.pow_le_pow_right (by decide) (by omega)
          _ ≤ d := ld₁
      simp only [hsub, pow_zero, mul_one, Nat.zero_sub]
      rw [if_neg (by omega)]
      exact ⟨by omega, fun h => absurd h (by decide)⟩
  rw [← hb]
  refine ⟨lt_of_lt_of_le hup (Nat.mul_le_mul_left _ (Nat.pow_le_pow_right (by decide) ?_)), ?_⟩
  · omega
  · by_cases h52 : b ≤ 52
    · exact .inl (by omega)
    · exact .inr (by rw [show b - 52 + 52 = b by omega]; exact hlo (by omega))

theorem le_of_ulpSpec {a d p q : Nat} (hp : UlpSpec a d p) (hq : q = 0 ∨ d * 2 ^ (q + 52) ≤ a) :
    q ≤ p := by
  rcases hq with rfl | hq
  · exact Nat.zero_le _
  · have : 2 ^ (q + 52) < 2 ^ (p + 53) := Nat.lt_of_mul_lt_mul_left (lt_of_le_of_lt hq hp.1)
    have := (Nat.pow_lt_pow_iff_right (by decide)).1 this
    omega

theorem ulpSpec_unique {a d p q : Nat} (hp : UlpSpec a d p) (hq : UlpSpec a d q) : p = q :=
  le_antisymm (le_of_ulpSpec hq hp.2) (le_of_ulpSpec hp hq.2)

/-! ## The rounded magnitude -/

/-- The quotient at the exponent of the last place has at most 53 bits, and 53 unless the
exponent is the least. -/
theorem quot_bounds {a d p : Nat} (hd : 0 < d) (hs : UlpSpec a d p) :
    a / (d * 2 ^ p) < 2 ^ 53 ∧ (p = 0 ∨ 2 ^ 52 ≤ a / (d * 2 ^ p)) := by
  have hD : 0 < d * 2 ^ p := Nat.mul_pos hd (Nat.two_pow_pos _)
  constructor
  · rw [Nat.div_lt_iff_lt_mul hD]
    calc a < d * 2 ^ (p + 53) := hs.1
      _ = 2 ^ 53 * (d * 2 ^ p) := by ring
  · refine hs.2.imp id fun h => (Nat.le_div_iff_mul_le hD).2 ?_
    calc 2 ^ 52 * (d * 2 ^ p) = d * 2 ^ (p + 52) := by ring
      _ ≤ a := h

theorem roundMag_zero (d : Nat) : roundMag 0 d = some (0, 0) := by
  have h0 : log2 0 = 0 := rfl
  have hu : ulpExp 0 d = 0 := by unfold ulpExp; dsimp only; split <;> omega
  simp [roundMag, hu, rne]

theorem valid_of_roundMag {a d m p : Nat} (hd : d ≠ 0) (h : roundMag a d = some (m, p)) :
    Valid m p := by
  rcases Nat.eq_zero_or_pos a with rfl | ha
  · rw [roundMag_zero] at h
    cases h
    exact ⟨by decide, .inr rfl, by decide⟩
  have hb := quot_bounds (Nat.pos_of_ne_zero hd) (ulpExp_spec ha.ne' hd)
  have hc := rne_cases a (d * 2 ^ ulpExp a d)
  unfold roundMag at h
  simp only [Nat.shiftLeft_eq] at h
  split_ifs at h with h53 hp hp'
  · cases h
    exact ⟨by decide, .inl le_rfl, hp⟩
  · cases h
    refine ⟨by omega, ?_, hp'⟩
    rcases hb.2 with h0 | h52
    · exact .inr h0
    · exact .inl (by omega)

/-- A valid significand at its exponent is the rounding of its own magnitude. -/
theorem roundMag_of_valid {m p d : Nat} (hm : 0 < m) (hd : 0 < d) (hv : Valid m p) :
    roundMag (m * 2 ^ p * d) d = some (m, p) := by
  obtain ⟨h53, h52, hp⟩ := hv
  have hs : UlpSpec (m * 2 ^ p * d) d p := by
    refine ⟨?_, h52.symm.imp id fun h => ?_⟩
    · calc m * 2 ^ p * d < 2 ^ 53 * 2 ^ p * d :=
            Nat.mul_lt_mul_of_pos_right (Nat.mul_lt_mul_of_pos_right h53 (Nat.two_pow_pos _)) hd
        _ = d * 2 ^ (p + 53) := by ring
    · calc d * 2 ^ (p + 52) = 2 ^ 52 * 2 ^ p * d := by ring
        _ ≤ m * 2 ^ p * d := Nat.mul_le_mul_right _ (Nat.mul_le_mul_right _ h)
  have hu : ulpExp (m * 2 ^ p * d) d = p :=
    ulpSpec_unique (ulpExp_spec (by positivity) hd.ne') hs
  have hr : rne (m * 2 ^ p * d) (d * 2 ^ p) = m := by
    rw [mul_assoc, mul_comm (2 ^ p)]; exact rne_mul m (by positivity)
  simp only [roundMag, hu, Nat.shiftLeft_eq, hr, h53.ne, if_false, hp, if_true]

/-! ## A binary64 value rounds to itself -/

theorem ofBinary_zero (neg : Bool) (p : Nat) : ofBinary neg 0 p = 0 := by
  unfold ofBinary
  dsimp only
  split
  · simp only [Nat.zero_shiftLeft, Nat.cast_zero, mul_zero]; rfl
  · simp only [zero_mul, Nat.cast_zero, mul_zero, normalize_zero]

/-- Scaling by powers of ten keeps the sign. -/
theorem decide_neg_of_mul_eq {x y : Int} {a b : Nat} (h : x * 10 ^ a = y * 10 ^ b) :
    decide (x < 0) = decide (y < 0) := by
  have ha : (0 : Int) < 10 ^ a := by positivity
  have hb : (0 : Int) < 10 ^ b := by positivity
  exact decide_eq_decide.2 ⟨fun hx => by nlinarith, fun hy => by nlinarith⟩

/-- The magnitude and sign of `ofBinary`. -/
theorem ofBinary_mag (neg : Bool) (m p : Nat) :
    (ofBinary neg m p).mantissa.natAbs <<< 1074 = m * 2 ^ p * 10 ^ (ofBinary neg m p).scale ∧
      (0 < m → (decide ((ofBinary neg m p).mantissa < 0) = neg)) := by
  have hs : ∀ x : Int, ((if neg then -1 else 1) * x).natAbs = x.natAbs := by
    intro x; cases neg <;> simp
  unfold ofBinary
  simp only [powFast_eq]
  split
  · rename_i hp
    refine ⟨?_, fun hm => ?_⟩
    · simp only [hs, Int.natAbs_ofNat, Nat.shiftLeft_eq, pow_zero, mul_one, mul_assoc,
        ← pow_add]
      congr 2; omega
    · cases neg <;> simp [Nat.shiftLeft_eq, hm]
  · rename_i hp
    have hv := normalize_value ((if neg then -1 else 1) * (m * 5 ^ (1074 - p) : Nat)) (1074 - p)
    generalize normalize _ (1074 - p) = r at hv ⊢
    refine ⟨?_, fun hm => ?_⟩
    · have hv' := congrArg Int.natAbs hv
      simp only [Int.natAbs_mul, hs, Int.natAbs_pow, Int.natAbs_ofNat,
        show (10 : Int).natAbs = 10 from rfl] at hv'
      have hr : r.mantissa.natAbs * 2 ^ (1074 - p) = m * 10 ^ r.scale := by
        apply Nat.eq_of_mul_eq_mul_right (show 0 < 5 ^ (1074 - p) by positivity)
        calc r.mantissa.natAbs * 2 ^ (1074 - p) * 5 ^ (1074 - p)
            = r.mantissa.natAbs * 10 ^ (1074 - p) := by rw [mul_assoc, ← mul_pow]; rfl
          _ = m * 5 ^ (1074 - p) * 10 ^ r.scale := hv'
          _ = m * 10 ^ r.scale * 5 ^ (1074 - p) := by ring
      rw [Nat.shiftLeft_eq, show 1074 = (1074 - p) + p by omega, pow_add, ← mul_assoc, hr]
      ring
    · have hpos : (0 : Int) < (m * 5 ^ (1074 - p) : Nat) := by positivity
      rw [decide_neg_of_mul_eq hv]
      cases neg
      · simp
      · simpa using hpos

@[simp] theorem toFloat64_zero : toFloat64 0 = .finite 0 := by
  have h : roundMag ((0 : JNum).mantissa.natAbs <<< 1074) (powFast 10 (0 : JNum).scale) =
      some (0, 0) :=
    roundMag_zero _
  unfold toFloat64
  rw [h]
  exact congrArg Float64.finite (ofBinary_zero _ _)

/-- A binary64 value reads back as itself. -/
theorem toFloat64_ofBinary {neg : Bool} {m p : Nat} (hv : Valid m p) :
    toFloat64 (ofBinary neg m p) = .finite (ofBinary neg m p) := by
  rcases Nat.eq_zero_or_pos m with rfl | hm
  · rw [ofBinary_zero, toFloat64_zero]
  · obtain ⟨hmag, hsign⟩ := ofBinary_mag neg m p
    unfold toFloat64
    rw [powFast_eq, hmag, roundMag_of_valid hm (by positivity) hv, hsign hm]

/-- What `toFloat64` returns is a binary64 value. -/
theorem toFloat64_finite {n x : JNum} (h : toFloat64 n = .finite x) :
    ∃ neg m p, Valid m p ∧ x = ofBinary neg m p := by
  unfold toFloat64 at h
  split at h
  · rename_i m p hr
    obtain rfl := Float64.finite.inj h
    exact ⟨_, m, p, valid_of_roundMag (by rw [powFast_eq]; positivity) hr, rfl⟩
  · cases h

/-- Rounding twice is rounding once. -/
theorem toFloat64_toFloat64 {n x : JNum} (h : toFloat64 n = .finite x) :
    toFloat64 x = .finite x := by
  obtain ⟨neg, m, p, hv, rfl⟩ := toFloat64_finite h
  exact toFloat64_ofBinary hv

/-! ## The shortest digits -/

/-- Of the candidates `down` and `up`, one that reads back as `x`; when both do, `down` if it is
the `nearer`. -/
def pickReadBack (x down up : JNum) (nearer : Bool) : Option JNum :=
  if toFloat64 down = .finite x ∧ (toFloat64 up ≠ .finite x ∨ nearer) then some down
  else if toFloat64 up = .finite x then some up else none

/-- The candidates with the last `t` digits of `x` cut off: `x` cut there, and that plus one unit
in its new last digit.  Of those that read back as `x`, the nearer; of two as near, the one with
an even last digit (`decimal.Round`). -/
def roundShortestAt (x : JNum) (t : Nat) : Option JNum :=
  let a := x.mantissa.natAbs
  let lo := a / powFast 10 t
  let r := a % powFast 10 t
  let s : Int := if x.mantissa < 0 then -1 else 1
  pickReadBack x (ofDecimal (s * lo) ((t : Int) - x.scale))
    (ofDecimal (s * (lo + 1)) ((t : Int) - x.scale))
    (decide (2 * r < powFast 10 t ∨ (2 * r = powFast 10 t ∧ lo % 2 = 0)))

/-- The digits `strconv.FormatFloat(f, 'f', -1, 64)` writes for the binary64 value `x`: the first
number of significant digits at which a candidate reads back as `x` (`roundShortest`). -/
def shortest (x : JNum) : JNum :=
  let L := (Nat.toDigits 10 x.mantissa.natAbs).length
  (((List.range L).map fun i => L - (i + 1)).findSome? (roundShortestAt x)).getD x

theorem toFloat64_of_pickReadBack {x down up c : JNum} {nearer : Bool}
    (h : pickReadBack x down up nearer = some c) : toFloat64 c = .finite x := by
  unfold pickReadBack at h
  split_ifs at h with h₁ h₂
  · exact Option.some.inj h ▸ h₁.1
  · exact Option.some.inj h ▸ h₂

/-- The shortest digits of a binary64 value read back as it. -/
theorem toFloat64_shortest {x : JNum} (h : toFloat64 x = .finite x) :
    toFloat64 (shortest x) = .finite x := by
  unfold shortest
  dsimp only
  cases hf : List.findSome? (roundShortestAt x) _ with
  | none => exact h
  | some c =>
    obtain ⟨t, -, ht⟩ := List.exists_of_findSome?_eq_some hf
    exact toFloat64_of_pickReadBack ht

/-! ## Go's round trip -/

/-- A number decoded into a `float64` and written again: the shortest digits of the nearest
binary64 value.  A number past the finite range, which `json.Unmarshal` refuses and
`json.Marshal` cannot write, is left as it is; `inRange` tells them apart. -/
def goNum (n : JNum) : JNum :=
  match toFloat64 n with
  | .finite x => shortest x
  | .inf _ => n

/-- The number is within binary64's finite range. -/
def inRange (n : JNum) : Bool :=
  match toFloat64 n with
  | .finite _ => true
  | .inf _ => false

theorem goNum_of_finite {n x : JNum} (h : toFloat64 n = .finite x) : goNum n = shortest x := by
  unfold goNum; rw [h]

theorem goNum_of_inf {n : JNum} {neg : Bool} (h : toFloat64 n = .inf neg) : goNum n = n := by
  unfold goNum; rw [h]

/-- Go's number reads back as the `float64` the number reads as. -/
theorem toFloat64_goNum (n : JNum) : toFloat64 n.goNum = toFloat64 n := by
  cases h : toFloat64 n with
  | finite x => rw [goNum_of_finite h, toFloat64_shortest (toFloat64_toFloat64 h)]
  | inf neg => rw [goNum_of_inf h, h]

@[simp] theorem goNum_goNum (n : JNum) : n.goNum.goNum = n.goNum := by
  cases h : toFloat64 n with
  | finite x =>
    rw [goNum_of_finite h]
    exact goNum_of_finite (toFloat64_shortest (toFloat64_toFloat64 h))
  | inf neg => rw [goNum_of_inf h, goNum_of_inf h]

@[simp] theorem inRange_goNum (n : JNum) : n.goNum.inRange = n.inRange := by
  unfold inRange; rw [toFloat64_goNum]

end JNum

/-! ## Comparing and writing `float64`s -/

namespace Float64

/-- `<` on `float64`s: `-Inf` below every finite value and `+Inf` above. -/
def lt : Float64 → Float64 → Bool
  | .finite a, .finite b => decide (a < b)
  | .inf true, .inf true => false
  | .inf true, _ => true
  | .finite _, .inf neg => !neg
  | .inf false, _ => false

/-- `<=` on `float64`s. -/
def le (a b : Float64) : Bool := decide (a = b) || lt a b

/-- `strconv.FormatFloat(f, 'f', -1, 64)`. -/
def formatF : Float64 → String
  | .finite x => x.shortest.text
  | .inf false => "+Inf"
  | .inf true => "-Inf"

end Float64

/-- A run of digits without its trailing zeros. -/
def stripTrailingZeros (ds : List Char) : List Char := (ds.reverse.dropWhile (· = '0')).reverse

namespace JNum

/-- `%v` of a `float64` whose shortest digits are `n`: `%g` with the shortest digits, in the form
`d.ddde±XX` when the decimal exponent is below `-4` or at least `6`, as a plain decimal otherwise. -/
def gText (n : JNum) : String :=
  let all := (toString n.mantissa.natAbs).toList
  let ds := stripTrailingZeros all
  let exp : Int := all.length - n.scale - 1
  let e := (toString exp.natAbs).toList
  if ds = [] then "0"
  else if exp < -4 ∨ 6 ≤ exp then
    String.mk ((if n.mantissa < 0 then ['-'] else []) ++ ds.take 1 ++
      (if 1 < ds.length then '.' :: ds.drop 1 else []) ++ ['e', if exp < 0 then '-' else '+'] ++
      (if e.length < 2 then ['0'] else []) ++ e)
  else n.text

/-- The text `json.Marshal` writes for a `float64` whose shortest digits are `n`: a plain decimal
from `1e-6` up to below `1e21`, `d.ddde±XX` otherwise, with the leading zero of a negative
two-digit exponent dropped (`e-07` becomes `e-7`). -/
def marshalText (n : JNum) : String :=
  let all := (toString n.mantissa.natAbs).toList
  let ds := stripTrailingZeros all
  let exp : Int := all.length - n.scale - 1
  let e := (toString exp.natAbs).toList
  if ds = [] ∨ (-6 ≤ exp ∧ exp < 21) then n.text
  else
    String.mk ((if n.mantissa < 0 then ['-'] else []) ++ ds.take 1 ++
      (if 1 < ds.length then '.' :: ds.drop 1 else []) ++ ['e', if exp < 0 then '-' else '+'] ++
      (if e.length < 2 ∧ 0 ≤ exp then ['0'] else []) ++ e)

end JNum

end NewApi
