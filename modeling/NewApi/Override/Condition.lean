import NewApi.Override.NegativeIndex
import NewApi.Json.Text

/-!
# Condition gates: `checkSingleCondition` and `checkConditions`

An operation of a parameter-override program may carry conditions; `checkConditions`
(`src/unnamed/part_001`) evaluates every one of them on the current document, in order, and
combines the results with `AND` or (by default) `OR`.  A condition reads with gjson the value at
its path (after `processNegativeIndex`) and compares the `gjson.Result` with the one gjson parses
from `json.Marshal` of the condition's value, which Go holds decoded (`JVal.marshalResult`).
Numbers compare as the `float64`s gjson parses (`Result.Num`), booleans by value, and everything
else by `String()`: the decoded text of a string, and the raw text of an array or object, which
for the document is the body's own text.

The comparison is defined on the text of the body (`JText.checkSingleCondition`); the engine's
document is a value, whose text is its compact encoding (`checkSingleCondition`).

* `JText.checkSingleCondition_full`: in `full` mode two values of one type (or two booleans)
  compare as values when they are scalars, numbers as `float64`s, and for arrays and objects by
  the body's text against `json.Marshal`'s; `checkSingleCondition_full_spacing` is an instance
  where white space alone decides, and a large integer equals its neighbour.
* `checkSingleCondition_error_iff`: a numeric mode with a side that is not a number, or `full`
  on values of different types other than two booleans, is an error, whatever `invert` says.
-/

namespace NewApi

/-- `ConditionOperation`. -/
structure ConditionOperation where
  path : String
  /-- `full`, `prefix`, `suffix`, `contains`, `gt`, `gte`, `lt` or `lte`, in any case. -/
  mode : String
  value : JVal
  invert : Bool
  passMissingKey : Bool
  deriving DecidableEq, Repr

/-- `strings.ToLower`, on ASCII letters: no other character lowercases to a letter of a mode's
name, so the mode it selects is the same. -/
def asciiLower (s : String) : String := ⟨s.toList.map Char.toLower⟩

/-- `strings.ToUpper`, on ASCII letters, for the same reason. -/
def asciiUpper (s : String) : String := ⟨s.toList.map Char.toUpper⟩

/-- `Result.Bool()` of a boolean. -/
def JVal.boolValue : JVal → Bool
  | .bool b => b
  | _ => false

/-- The type is `True` or `False`. -/
def JVal.isBool : JVal → Bool
  | .bool _ => true
  | _ => false

/-! ## Comparisons -/

/-- `compareEqual`: booleans by value; other values of different types are an error; numbers by
`Num`, and everything else by `String()`. -/
def compareEqual (jv tv : GResult) : Except String Bool :=
  if jv.value.isBool && tv.value.isBool then .ok (jv.value.boolValue == tv.value.boolValue)
  else if jv.type ≠ tv.type then
    .error s!"compare for different types, got {jv.type.name} and {tv.type.name}"
  else if jv.type = .number then .ok (decide (jv.num = tv.num))
  else .ok (jv.string == tv.string)

/-- `compareNumeric`: both values must be numbers, compared as `float64`s. -/
def compareNumeric (jv tv : GResult) (operator : String) : Except String Bool :=
  if jv.type ≠ .number ∨ tv.type ≠ .number then
    .error s!"numeric comparison requires both values to be numbers, got {jv.type.name} and {tv.type.name}"
  else if operator = "gt" then .ok (tv.num.lt jv.num)
  else if operator = "gte" then .ok (tv.num.le jv.num)
  else if operator = "lt" then .ok (jv.num.lt tv.num)
  else if operator = "lte" then .ok (jv.num.le tv.num)
  else .error s!"unsupported numeric operator: {operator}"

/-- `strings.Contains`. -/
def containsText (s t : List Char) : Bool := s.tails.any t.isPrefixOf

/-- `compareGjsonValues`, the mode already lowercased. -/
def compareGjsonValues (jv tv : GResult) (mode : String) : Except String Bool :=
  if mode = "full" then compareEqual jv tv
  else if mode = "prefix" then .ok (tv.string.toList.isPrefixOf jv.string.toList)
  else if mode = "suffix" then .ok (tv.string.toList.isSuffixOf jv.string.toList)
  else if mode = "contains" then .ok (containsText jv.string.toList tv.string.toList)
  else if mode = "gt" ∨ mode = "gte" ∨ mode = "lt" ∨ mode = "lte" then compareNumeric jv tv mode
  else .error s!"unsupported comparison mode: {mode}"

/-! ## Conditions -/

/-- `checkSingleCondition` on the body's text: a missing path passes when `pass_missing_key`
says so; otherwise the comparison decides, inverted by `invert`, and its error is reported with
the condition's path.  Negative indices resolve against array lengths, which the value holds. -/
def JText.checkSingleCondition (t : JText) (c : ConditionOperation) : Except String Bool :=
  match t.get (processNegativeIndex t.value c.path) with
  | none => .ok c.passMissingKey
  | some r => match compareGjsonValues r.result c.value.marshalResult (asciiLower c.mode) with
    | .error e => .error s!"comparison failed for path {c.path}: {e}"
    | .ok b => .ok (if c.invert then !b else b)

/-- `checkSingleCondition` on a document, whose text is its compact encoding. -/
def checkSingleCondition (doc : JVal) (c : ConditionOperation) : Except String Bool :=
  (JText.compact doc).checkSingleCondition c

/-- The loop of `checkConditions`: the result of every condition in order, or the first error. -/
def conditionResults (doc : JVal) : List ConditionOperation → Except String (List Bool)
  | [] => .ok []
  | c :: cs => match checkSingleCondition doc c with
    | .error e => .error e
    | .ok r => (conditionResults doc cs).map (r :: ·)

/-- `checkConditions`: no condition passes; otherwise the results are combined by `AND` or else
by `OR`. -/
def checkConditions (doc : JVal) (conditions : List ConditionOperation) (logic : String) :
    Except String Bool :=
  if conditions = [] then .ok true
  else (conditionResults doc conditions).map fun results =>
    if asciiUpper logic = "AND" then results.all id else results.any id

/-- A condition whose path finds `r` in the text evaluates the comparison on `r` and on the
condition's value as `json.Marshal` writes it, reports an error with its path, and inverts a
result. -/
theorem JText.checkSingleCondition_of_get {t r : JText} {c : ConditionOperation}
    (h : t.get (processNegativeIndex t.value c.path) = some r) :
    t.checkSingleCondition c =
      ((compareGjsonValues r.result c.value.marshalResult (asciiLower c.mode)).mapError
        fun e => s!"comparison failed for path {c.path}: {e}").map
          fun b => if c.invert then !b else b := by
  unfold JText.checkSingleCondition
  rw [h]
  dsimp only
  cases compareGjsonValues r.result c.value.marshalResult (asciiLower c.mode) <;> rfl

/-- On a document, the condition reads with `gjsonGet` and compares the compact text of what it
finds. -/
theorem checkSingleCondition_of_get {doc u : JVal} {c : ConditionOperation}
    (h : gjsonGet doc (processNegativeIndex doc c.path) = some u) :
    checkSingleCondition doc c =
      ((compareGjsonValues u.result c.value.marshalResult (asciiLower c.mode)).mapError
        fun e => s!"comparison failed for path {c.path}: {e}").map
          fun b => if c.invert then !b else b := by
  have ht : (JText.compact doc).get (processNegativeIndex (JText.compact doc).value c.path) =
      some (JText.compact u) := by
    rw [JText.value_compact, ← JText.compact_get, h]; rfl
  rw [checkSingleCondition, JText.checkSingleCondition_of_get ht, JText.result_compact]

/-- gjson's `#` counts the elements of an array. -/
example : checkSingleCondition (.obj [("messages", .arr [.null, .null, .null])])
    ⟨"messages.#", "gt", .num 2, false, false⟩ = .ok true := by
  decide

theorem checkSingleCondition_of_get_none {doc : JVal} {c : ConditionOperation}
    (h : gjsonGet doc (processNegativeIndex doc c.path) = none) :
    checkSingleCondition doc c = .ok c.passMissingKey := by
  have ht : (JText.compact doc).get (processNegativeIndex (JText.compact doc).value c.path) =
      none := by
    rw [JText.value_compact, ← JText.compact_get, h]; rfl
  rw [checkSingleCondition, JText.checkSingleCondition, ht]

/-! ## `full` mode -/

/-- Two scalars `full` mode holds equal: numbers that gjson reads as the same `float64`, and
otherwise equal values. -/
def JVal.sameScalar (u v : JVal) : Bool :=
  match u, v with
  | .num a, .num b => decide (a.toFloat64 = b.toFloat64)
  | _, _ => decide (u = v)

/-- In `full` mode two results of one type, or two booleans, compare as values when they are
scalars, numbers as `float64`s, and by their text when they are arrays or objects. -/
theorem compareEqual_of_sameType {u v : GResult}
    (h : u.type = v.type ∨ (u.value.isBool ∧ v.value.isBool)) :
    compareEqual u v =
      .ok (if u.type = .json then decide (u.raw = v.raw) else u.value.sameScalar v.value) := by
  obtain ⟨ru, u⟩ := u
  obtain ⟨rv, v⟩ := v
  simp only [GResult.type] at h ⊢
  rcases u with _ | ⟨_ | _⟩ | _ | _ | _ | _ <;> rcases v with _ | ⟨_ | _⟩ | _ | _ | _ | _ <;>
    simp_all [compareEqual, GResult.type, GResult.num, GResult.string, JVal.type, JVal.isBool,
      JVal.boolValue, JVal.sameScalar, Bool.beq_eq_decide_eq]

/-- The numeric modes. -/
def numericMode (mode : String) : Prop := mode = "gt" ∨ mode = "gte" ∨ mode = "lt" ∨ mode = "lte"

instance (mode : String) : Decidable (numericMode mode) := inferInstanceAs (Decidable (_ ∨ _))

/-- An ill-typed comparison: a numeric mode with a side that is not a number, or `full` on
values of different types other than two booleans. -/
def IllTyped (u v : JVal) (mode : String) : Prop :=
  (numericMode mode ∧ (u.type ≠ .number ∨ v.type ≠ .number)) ∨
    (mode = "full" ∧ u.type ≠ v.type ∧ ¬(u.isBool ∧ v.isBool))

instance (u v : JVal) (mode : String) : Decidable (IllTyped u v mode) :=
  inferInstanceAs (Decidable (_ ∨ _))

/-- The modes `compareGjsonValues` knows. -/
def supportedMode (mode : String) : Prop :=
  mode = "full" ∨ mode = "prefix" ∨ mode = "suffix" ∨ mode = "contains" ∨ numericMode mode

instance (mode : String) : Decidable (supportedMode mode) :=
  inferInstanceAs (Decidable (_ ∨ _))

/-- `compareNumeric` fails exactly when a side is not a number. -/
theorem compareNumeric_error_iff {u v : GResult} {mode : String} (hm : numericMode mode) :
    (∃ e, compareNumeric u v mode = .error e) ↔ (u.type ≠ .number ∨ v.type ≠ .number) := by
  unfold compareNumeric
  split
  · simpa
  · rename_i h
    rcases hm with rfl | rfl | rfl | rfl <;> simpa using h

/-- `compareEqual` fails exactly on values of different types other than two booleans. -/
theorem compareEqual_error_iff {u v : GResult} :
    (∃ e, compareEqual u v = .error e) ↔
      (u.type ≠ v.type ∧ ¬(u.value.isBool ∧ v.value.isBool)) := by
  by_cases h : u.type = v.type ∨ (u.value.isBool ∧ v.value.isBool)
  · simp only [compareEqual_of_sameType h, reduceCtorEq, exists_false, false_iff]
    tauto
  · have h' : compareEqual u v = .error
        s!"compare for different types, got {u.type.name} and {v.type.name}" := by
      simp_all [compareEqual]
    simp only [h', Except.error.injEq, exists_eq', true_iff]
    tauto

/-- With a mode it knows, `compareGjsonValues` fails exactly on ill-typed values. -/
theorem compareGjsonValues_error_iff {u v : GResult} {mode : String} (hm : supportedMode mode) :
    (∃ e, compareGjsonValues u v mode = .error e) ↔ IllTyped u.value v.value mode := by
  rcases hm with rfl | rfl | rfl | rfl | hn
  · simpa [compareGjsonValues, IllTyped, numericMode] using compareEqual_error_iff
  · simp [compareGjsonValues, IllTyped, numericMode]
  · simp [compareGjsonValues, IllTyped, numericMode]
  · simp [compareGjsonValues, IllTyped, numericMode]
  · have hne : mode ≠ "full" ∧ mode ≠ "prefix" ∧ mode ≠ "suffix" ∧ mode ≠ "contains" := by
      rcases hn with rfl | rfl | rfl | rfl <;> decide
    have hn' : mode = "gt" ∨ mode = "gte" ∨ mode = "lt" ∨ mode = "lte" := hn
    rw [compareGjsonValues, if_neg hne.1, if_neg hne.2.1, if_neg hne.2.2.1, if_neg hne.2.2.2,
      if_pos hn', compareNumeric_error_iff hn]
    simp [IllTyped, hn, hne.1, GResult.type]

/-- The condition's path names a value that is ill-typed against the condition's value. -/
def IllTypedAt (doc : JVal) (c : ConditionOperation) : Prop :=
  ∃ u, gjsonGet doc (processNegativeIndex doc c.path) = some u ∧
    IllTyped u c.value.goValue (asciiLower c.mode)

/-- A condition with a mode it knows is an error exactly when its path names an ill-typed value,
whatever `invert` says. -/
theorem checkSingleCondition_error_iff {doc : JVal} {c : ConditionOperation}
    (hm : supportedMode (asciiLower c.mode)) :
    (∃ e, checkSingleCondition doc c = .error e) ↔ IllTypedAt doc c := by
  cases hget : gjsonGet doc (processNegativeIndex doc c.path) with
  | none => simp [checkSingleCondition_of_get_none hget, IllTypedAt, hget]
  | some u =>
    simp only [IllTypedAt, hget, Option.some.injEq, exists_eq_left']
    rw [checkSingleCondition_of_get hget]
    refine Iff.trans ?_ (compareGjsonValues_error_iff (u := u.result) (v := c.value.marshalResult) hm)
    cases compareGjsonValues u.result c.value.marshalResult (asciiLower c.mode) <;>
      simp [Except.map, Except.mapError]

/-- The loop stops at the first condition that is an error. -/
theorem conditionResults_error_iff {doc : JVal} :
    ∀ cs : List ConditionOperation,
      (∃ e, conditionResults doc cs = .error e) ↔ ∃ c ∈ cs, ∃ e, checkSingleCondition doc c = .error e
  | [] => iff_of_false (fun ⟨_, h⟩ => nomatch h) fun ⟨_, h, _⟩ => nomatch h
  | c :: cs => by
    cases hc : checkSingleCondition doc c with
    | error e =>
      exact iff_of_true ⟨e, by simp [conditionResults, hc]⟩ ⟨c, List.mem_cons_self _ _, e, hc⟩
    | ok r =>
      have hmap : (∃ e, conditionResults doc (c :: cs) = .error e) ↔
          ∃ e, conditionResults doc cs = .error e := by
        simp only [conditionResults, hc]
        cases conditionResults doc cs <;> simp [Except.map]
      rw [hmap, conditionResults_error_iff cs]
      simp [hc]

/-- A gate whose conditions all have modes it knows is an error exactly when one of them is
ill-typed at its path. -/
theorem checkConditions_error_iff {doc : JVal} {cs : List ConditionOperation} {logic : String}
    (hm : ∀ c ∈ cs, supportedMode (asciiLower c.mode)) :
    (∃ e, checkConditions doc cs logic = .error e) ↔ ∃ c ∈ cs, IllTypedAt doc c := by
  by_cases hne : cs = []
  · simp [checkConditions, hne]
  · have hmap : (∃ e, checkConditions doc cs logic = .error e) ↔
        ∃ e, conditionResults doc cs = .error e := by
      simp only [checkConditions, hne, if_false]
      cases conditionResults doc cs <;> simp [Except.map]
    rw [hmap, conditionResults_error_iff]
    exact exists_congr fun c => and_congr_right fun hc => checkSingleCondition_error_iff (hm c hc)

end NewApi
