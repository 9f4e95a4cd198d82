import NewApi.Json.Gjson

/-!
# The text of a body

gjson reads a request body as text, and two things it reports depend on how the body is written
and not only on the value it denotes: `Result.Raw`, which a `full` condition compares for arrays
and objects, and `Result.String()` of a number, which is the text itself for an integer written
in digits.  This file models a body as the tree of its literals and white space: `JText.text` is
the body and `JText.value` the value it denotes.  A literal carries its text as written and its
value, which is a scalar.

* `JText.get`: gjson's `Get` on the text, the reading of `Json/Gjson.lean` over the tree.
  `JText.value_get`: what it finds denotes what `gjsonGet` finds in the body's value.
* `JText.compact`: the compact text of a value.  `JText.compact_get`: gjson finds in it the
  compact text of what it finds in the value; `JText.text_compact`: its text is `JVal.raw`.
* `GResult`: a `gjson.Result`, the text found and its value, with `String()` and `Num`.
-/

namespace NewApi

/-- A scalar: `null`, a boolean, a number or a string. -/
def JVal.isScalar : JVal → Bool
  | .arr _ | .obj _ => false
  | _ => true

/-- A JSON text as a body writes it. -/
inductive JText where
  /-- A number, string, `true`, `false` or `null`: its text as written and its value. -/
  | lit (raw : String) (v : JVal) (scalar : v.isScalar = true)
  /-- An array: each element with the white space before and after it; for `[]`, the white
  space inside. -/
  | arr (items : List (String × JText × String)) (inner : String)
  /-- An object: each member with the white space before it, its text from the key's opening
  quote to the value (the key as written, white space, `:`, white space), its decoded key, its
  value and the white space after it; for `{}`, the white space inside. -/
  | obj (members : List (String × String × String × JText × String)) (inner : String)

namespace JText

mutual
/-- The text. -/
def text : JText → String
  | .lit raw _ _ => raw
  | .arr items inner =>
    "[" ++ (if items.isEmpty then inner else ",".intercalate (itemsText items)) ++ "]"
  | .obj ms inner =>
    "\x7b" ++ (if ms.isEmpty then inner else ",".intercalate (membersText ms)) ++ "\x7d"
def itemsText : List (String × JText × String) → List String
  | [] => []
  | (a, t, b) :: is => (a ++ t.text ++ b) :: itemsText is
def membersText : List (String × String × String × JText × String) → List String
  | [] => []
  | (a, h, _, t, b) :: ms => (a ++ h ++ t.text ++ b) :: membersText ms
end

mutual
/-- The value the text denotes. -/
def value : JText → JVal
  | .lit _ v _ => v
  | .arr items _ => .arr (itemsValue items)
  | .obj ms _ => .obj (membersValue ms)
def itemsValue : List (String × JText × String) → List JVal
  | [] => []
  | (_, t, _) :: is => t.value :: itemsValue is
def membersValue : List (String × String × String × JText × String) → List (String × JVal)
  | [] => []
  | (_, _, k, t, _) :: ms => (k, t.value) :: membersValue ms
end

theorem itemsValue_eq_map (is : List (String × JText × String)) :
    itemsValue is = is.map fun i => i.2.1.value := by
  induction is with
  | nil => rfl
  | cons i is ih => obtain ⟨a, t, b⟩ := i; simp [itemsValue, ih]

theorem membersValue_eq_map (ms : List (String × String × String × JText × String)) :
    membersValue ms = ms.map fun m => (m.2.2.1, m.2.2.2.1.value) := by
  induction ms with
  | nil => rfl
  | cons m ms ih => obtain ⟨a, h, k, t, b⟩ := m; simp [membersValue, ih]

/-! ## gjson on the text -/

/-- The text as gjson reads it: the count of an array is written in decimal (`strconv.Itoa`),
and a projection's elements are joined by commas with no white space. -/
def reader : Reader JText where
  shape
    | .obj ms _ => .obj (ms.map fun m => (m.2.2.1, m.2.2.2.1))
    | .arr items _ => .arr (items.map fun i => i.2.1)
    | .lit _ _ _ => .leaf
  count n := .lit (JNum.ofInt n).text (.num (JNum.ofInt n)) rfl
  collect ts := .arr (ts.map fun t => ("", t, "")) ""

/-- `gjson.Get(json, path)` on the body. -/
def get (t : JText) (path : String) : Option JText := reader.get t path

theorem shape_value (t : JText) : valueReader.shape t.value = (reader.shape t).map value := by
  cases t with
  | lit raw v hv =>
    cases v <;> first | rfl | cases hv
  | arr items inner =>
    simp only [value, reader, valueReader, Shape.map, itemsValue_eq_map, List.map_map]
    rfl
  | obj ms inner =>
    simp only [value, reader, valueReader, Shape.map, membersValue_eq_map, List.map_map]
    rfl

mutual
/-- The compact text of a value: no white space, Go's escapes, and each number in its shortest
decimal form. -/
def compact : JVal → JText
  | .null => .lit "null" .null rfl
  | .bool b => .lit (toString b) (.bool b) rfl
  | .num n => .lit n.text (.num n) rfl
  | .str s => .lit (quote s) (.str s) rfl
  | .arr xs => .arr (compactItems xs) ""
  | .obj kvs => .obj (compactMembers kvs) ""
def compactItems : List JVal → List (String × JText × String)
  | [] => []
  | x :: xs => ("", compact x, "") :: compactItems xs
def compactMembers : List (String × JVal) → List (String × String × String × JText × String)
  | [] => []
  | (k, v) :: kvs => ("", quote k ++ ":", k, compact v, "") :: compactMembers kvs
end

theorem compactItems_eq_map (xs : List JVal) :
    compactItems xs = xs.map fun x => ("", compact x, "") := by
  induction xs with
  | nil => rfl
  | cons x xs ih => simp [compactItems, ih]

theorem compactMembers_eq_map (kvs : List (String × JVal)) :
    compactMembers kvs = kvs.map fun kv => ("", quote kv.1 ++ ":", kv.1, compact kv.2, "") := by
  induction kvs with
  | nil => rfl
  | cons kv kvs ih => obtain ⟨k, v⟩ := kv; simp [compactMembers, ih]

mutual
@[simp] theorem value_compact : ∀ v : JVal, (compact v).value = v
  | .null | .bool _ | .num _ | .str _ => rfl
  | .arr xs => by simp only [compact, value, itemsValue_compactItems xs]
  | .obj kvs => by simp only [compact, value, membersValue_compactMembers kvs]
theorem itemsValue_compactItems : ∀ xs : List JVal, itemsValue (compactItems xs) = xs
  | [] => rfl
  | x :: xs => by simp only [compactItems, itemsValue, value_compact x, itemsValue_compactItems xs]
theorem membersValue_compactMembers :
    ∀ kvs : List (String × JVal), membersValue (compactMembers kvs) = kvs
  | [] => rfl
  | (k, v) :: kvs => by
    simp only [compactMembers, membersValue, value_compact v, membersValue_compactMembers kvs]
end

mutual
/-- The compact text of a value is the text `JVal.raw` gives it. -/
theorem text_compact : ∀ v : JVal, (compact v).text = v.raw
  | .null | .bool _ | .num _ | .str _ => rfl
  | .arr xs => by
    have h := itemsText_compactItems xs
    cases xs with
    | nil => rfl
    | cons x xs =>
      simp only [compact, text, compactItems, JVal.raw, JVal.encode, List.isEmpty_cons,
        Bool.false_eq_true, if_false, String.append_assoc] at h ⊢
      rw [h]
  | .obj kvs => by
    have h := membersText_compactMembers kvs
    cases kvs with
    | nil => rfl
    | cons kv kvs =>
      simp only [compact, text, compactMembers, JVal.raw, JVal.encode, List.isEmpty_cons,
        Bool.false_eq_true, if_false, String.append_assoc] at h ⊢
      rw [h]
theorem itemsText_compactItems :
    ∀ xs : List JVal, itemsText (compactItems xs) = JVal.encodeList JNum.text xs
  | [] => rfl
  | x :: xs => by
    simp only [compactItems, itemsText, JVal.encodeList, text_compact x, itemsText_compactItems xs,
      String.append_empty, String.empty_append]
    rfl
theorem membersText_compactMembers : ∀ kvs : List (String × JVal),
    membersText (compactMembers kvs) = JVal.encodeMembers JNum.text kvs
  | [] => rfl
  | (k, v) :: kvs => by
    simp only [compactMembers, membersText, JVal.encodeMembers, text_compact v,
      membersText_compactMembers kvs, String.append_empty, String.empty_append]
    rfl
end

theorem shape_compact (v : JVal) : reader.shape (compact v) = (valueReader.shape v).map compact := by
  cases v with
  | arr xs => simp [compact, reader, valueReader, Shape.map, compactItems_eq_map]
  | obj kvs => simp [compact, reader, valueReader, Shape.map, compactMembers_eq_map]
  | _ => rfl

/-- gjson finds in the compact text of a value the compact text of what it finds in the
value. -/
theorem compact_get (v : JVal) (path : String) :
    (gjsonGet v path).map compact = (compact v).get path :=
  Reader.get_map compact shape_compact (fun _ => rfl)
    (fun ts => by simp [compact, reader, valueReader, compactItems_eq_map]) v path

end JText

/-! ## `gjson.Result` -/

/-- A `gjson.Result` as the engine reads it: the text found, as the body writes it (`Raw`), and
the value it denotes. -/
structure GResult where
  raw : String
  value : JVal

/-- What gjson reports for a part of the body. -/
def JText.result (t : JText) : GResult := ⟨t.text, t.value⟩

/-- What gjson reports for a value in a body written compactly. -/
def JVal.result (v : JVal) : GResult := ⟨v.raw, v⟩

/-- `gjson.ParseBytes(json.Marshal(v))`: the text `json.Marshal` writes for the Go value of
`v`, and that value. -/
def JVal.marshalResult (v : JVal) : GResult := ⟨v.marshal, v.goValue⟩

theorem JText.result_compact (v : JVal) : (JText.compact v).result = v.result := by
  simp [JText.result, JVal.result, JText.text_compact]

/-- The text is an integer written in digits, with an optional minus sign. -/
def integerText : List Char → Bool
  | '-' :: ds => ds.all Char.isDigit
  | ds => ds.all Char.isDigit

namespace GResult

/-- `Result.Type`. -/
def type (r : GResult) : JType := r.value.type

/-- `Result.Num`: `strconv.ParseFloat` of a number's text. -/
def num (r : GResult) : Float64 :=
  match r.value with
  | .num n => n.toFloat64
  | _ => .finite 0

/-- `Result.String()`: nothing for `null`; the text of a number when it is an integer written in
digits, and `strconv.FormatFloat(Num, 'f', -1, 64)` otherwise; the decoded text of a string;
the raw text of an array or object. -/
def string (r : GResult) : String :=
  match r.value with
  | .null => ""
  | .bool b => toString b
  | .num n => if r.raw ≠ "" ∧ integerText r.raw.toList then r.raw else n.toFloat64.formatF
  | .str s => s
  | .arr _ | .obj _ => r.raw

end GResult

end NewApi
