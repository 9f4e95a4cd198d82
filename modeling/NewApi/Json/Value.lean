import NewApi.Json.Number

/-!
# JSON values as the parameter-override engine sees them

The parameter-override engine (`src/unnamed/part_001`, package `common`) works on request bodies
through two libraries that are not part of the sources: `gjson`, which reads a value at a path,
and `sjson`, which writes one.  This file models the values they read and write; numbers are
`JNum`s (`Json/Number.lean`).

* `JVal`: a JSON value.  Object members keep their order and may repeat a key, as request
  bodies may; gjson reads the first member with a key.
* `JVal.type`: `gjson.Result`'s `Type`.  `JVal.raw`: the text of a value in a body written
  compactly, with Go's escapes and each number in its shortest decimal form; the text level
  (`Json/Text.lean`) keeps any other spelling a body uses.
* `JVal.goValue`: what `Result.Value()` and `json.Unmarshal` give in Go, which `json.Marshal`
  and `sjson.Set` write back.  A number becomes a `float64` (`JNum.goNum`); an object becomes a
  `map[string]interface{}`: a repeated key keeps its last value, and the keys are written
  sorted.  `JVal.marshal` is the text `json.Marshal` writes for it.
* `JVal.inRange`: every number is within `float64`'s finite range.  `json.Unmarshal` refuses a
  number past it, and `json.Marshal` cannot write the infinity `Result.Value()` gives for one.
-/

namespace NewApi

/-! ## Values -/

/-- A JSON value. -/
inductive JVal where
  | null
  | bool (b : Bool)
  | num (n : JNum)
  | str (s : String)
  | arr (xs : List JVal)
  /-- An object, its members in document order; a key may repeat. -/
  | obj (kvs : List (String × JVal))
  deriving Repr, Inhabited

mutual
/-- Equality of JSON values is decidable (by structural recursion, since `deriving` does not
reach through the nested lists). -/
def JVal.decEq : (a b : JVal) → Decidable (a = b)
  | .null, b => match b with
    | .null => isTrue rfl
    | .bool _ | .num _ | .str _ | .arr _ | .obj _ => isFalse fun h => JVal.noConfusion h
  | .bool x, b => match b with
    | .bool y => if h : x = y then isTrue (h ▸ rfl) else isFalse fun e => h (JVal.bool.inj e)
    | .null | .num _ | .str _ | .arr _ | .obj _ => isFalse fun h => JVal.noConfusion h
  | .num x, b => match b with
    | .num y => if h : x = y then isTrue (h ▸ rfl) else isFalse fun e => h (JVal.num.inj e)
    | .null | .bool _ | .str _ | .arr _ | .obj _ => isFalse fun h => JVal.noConfusion h
  | .str x, b => match b with
    | .str y => if h : x = y then isTrue (h ▸ rfl) else isFalse fun e => h (JVal.str.inj e)
    | .null | .bool _ | .num _ | .arr _ | .obj _ => isFalse fun h => JVal.noConfusion h
  | .arr xs, b => match b with
    | .arr ys => match JVal.decEqList xs ys with
      | isTrue h => isTrue (h ▸ rfl)
      | isFalse h => isFalse fun e => h (JVal.arr.inj e)
    | .null | .bool _ | .num _ | .str _ | .obj _ => isFalse fun h => JVal.noConfusion h
  | .obj xs, b => match b with
    | .obj ys => match JVal.decEqMembers xs ys with
      | isTrue h => isTrue (h ▸ rfl)
      | isFalse h => isFalse fun e => h (JVal.obj.inj e)
    | .null | .bool _ | .num _ | .str _ | .arr _ => isFalse fun h => JVal.noConfusion h
def JVal.decEqList : (xs ys : List JVal) → Decidable (xs = ys)
  | [], [] => isTrue rfl
  | x :: xs, y :: ys => match JVal.decEq x y, JVal.decEqList xs ys with
    | isTrue h₁, isTrue h₂ => isTrue (h₁ ▸ h₂ ▸ rfl)
    | isFalse h, _ => isFalse fun e => h (List.head_eq_of_cons_eq e)
    | _, isFalse h => isFalse fun e => h (List.tail_eq_of_cons_eq e)
  | [], _ :: _ => isFalse fun h => List.noConfusion h
  | _ :: _, [] => isFalse fun h => List.noConfusion h
def JVal.decEqMembers : (xs ys : List (String × JVal)) → Decidable (xs = ys)
  | [], [] => isTrue rfl
  | (k, x) :: xs, (l, y) :: ys =>
    if hk : k = l then match JVal.decEq x y, JVal.decEqMembers xs ys with
      | isTrue h₁, isTrue h₂ => isTrue (hk ▸ h₁ ▸ h₂ ▸ rfl)
      | isFalse h, _ => isFalse fun e => h (Prod.mk.inj (List.head_eq_of_cons_eq e)).2
      | _, isFalse h => isFalse fun e => h (List.tail_eq_of_cons_eq e)
    else isFalse fun e => hk (Prod.mk.inj (List.head_eq_of_cons_eq e)).1
  | [], _ :: _ => isFalse fun h => List.noConfusion h
  | _ :: _, [] => isFalse fun h => List.noConfusion h
end

instance : DecidableEq JVal := JVal.decEq

/-! ## What gjson reports about a value -/

/-- `gjson.Type`.  Arrays and objects are both `JSON`. -/
inductive JType where
  | null
  | false
  | number
  | string
  | true
  | json
  deriving DecidableEq, Repr

/-- `gjson.Type.String()`. -/
def JType.name : JType → String
  | .null => "Null"
  | .false => "False"
  | .number => "Number"
  | .string => "String"
  | .true => "True"
  | .json => "JSON"

/-- The gjson type of a value. -/
def JVal.type : JVal → JType
  | .null => .null
  | .bool true => .true
  | .bool false => .false
  | .num _ => .number
  | .str _ => .string
  | .arr _ | .obj _ => .json

/-- One hexadecimal digit. -/
def hexDigit (n : Nat) : Char :=
  if n < 10 then Char.ofNat (48 + n) else Char.ofNat (87 + n)

/-- One character of a string literal as Go's `encoding/json` writes it: quotes and backslashes
escaped, control characters and the HTML-sensitive `<`, `>`, `&` (and U+2028, U+2029) as
`\uXXXX`. -/
def quoteChar (c : Char) : String :=
  let u (n : Nat) : String :=
    String.mk ['\\', 'u', hexDigit (n / 4096 % 16), hexDigit (n / 256 % 16), hexDigit (n / 16 % 16),
      hexDigit (n % 16)]
  if c = '"' then "\\\"" else if c = '\\' then "\\\\"
  else if c = '\n' then "\\n" else if c = '\r' then "\\r" else if c = '\t' then "\\t"
  else if c.toNat < 32 ∨ c = '<' ∨ c = '>' ∨ c = '&' ∨ c.toNat = 0x2028 ∨ c.toNat = 0x2029 then
    u c.toNat
  else c.toString

/-- A string literal. -/
def quote (s : String) : String := "\"" ++ String.join (s.toList.map quoteChar) ++ "\""

mutual
/-- The compact text of a value, each number written by `num`: no white space, Go's escapes in
strings and keys. -/
def JVal.encode (num : JNum → String) : JVal → String
  | .null => "null"
  | .bool b => toString b
  | .num n => num n
  | .str s => quote s
  | .arr xs => "[" ++ ",".intercalate (JVal.encodeList num xs) ++ "]"
  | .obj kvs => "\x7b" ++ ",".intercalate (JVal.encodeMembers num kvs) ++ "\x7d"
def JVal.encodeList (num : JNum → String) : List JVal → List String
  | [] => []
  | x :: xs => x.encode num :: JVal.encodeList num xs
def JVal.encodeMembers (num : JNum → String) : List (String × JVal) → List String
  | [] => []
  | (k, v) :: kvs => (quote k ++ ":" ++ v.encode num) :: JVal.encodeMembers num kvs
end

/-- `Result.Raw` of a value in a compactly written body: numbers in their shortest decimal
form. -/
def JVal.raw (v : JVal) : String := v.encode JNum.text

/-! ## Go's view of a value -/

/-- The members of an object with each key kept once, at its last occurrence: what a Go map
decoded from them holds. -/
def keepLast {α : Type} : List (String × α) → List (String × α)
  | [] => []
  | (k, v) :: kvs => if k ∈ kvs.map Prod.fst then keepLast kvs else (k, v) :: keepLast kvs

/-- The order in which `json.Marshal` writes the keys of a map: by their bytes, which for UTF-8
text is the order of their characters. -/
def keyLE {α : Type} (a b : String × α) : Prop := a.1.toList ≤ b.1.toList

instance {α : Type} : DecidableRel (@keyLE α) := fun a b =>
  inferInstanceAs (Decidable (a.1.toList ≤ b.1.toList))

/-- Members ordered by key, as `json.Marshal` writes a map. -/
def sortByKey {α : Type} (kvs : List (String × α)) : List (String × α) := kvs.insertionSort keyLE

mutual
/-- `Result.Value()`, and `json.Unmarshal` into an `interface{}`: a number becomes a `float64`,
arrays stay arrays, an object becomes a map, which keeps the last value of a repeated key and
which `json.Marshal` (and so `sjson.Set`) writes with its keys sorted. -/
def JVal.goValue : JVal → JVal
  | .null => .null
  | .bool b => .bool b
  | .num n => .num n.goNum
  | .str s => .str s
  | .arr xs => .arr (JVal.goList xs)
  | .obj kvs => .obj (sortByKey (keepLast (JVal.goMembers kvs)))
def JVal.goList : List JVal → List JVal
  | [] => []
  | x :: xs => x.goValue :: JVal.goList xs
def JVal.goMembers : List (String × JVal) → List (String × JVal)
  | [] => []
  | (k, v) :: kvs => (k, v.goValue) :: JVal.goMembers kvs
end

/-- The text `json.Marshal` writes for the Go value of `v`: compact, keys sorted, numbers as
`float64`s. -/
def JVal.marshal (v : JVal) : String := v.goValue.encode JNum.marshalText

mutual
/-- The first number of the value, in the order its text writes them, that lies past
`float64`'s finite range. -/
def JVal.firstOutOfRange : JVal → Option JNum
  | .null | .bool _ | .str _ => none
  | .num n => if n.inRange then none else some n
  | .arr xs => JVal.firstOutOfRangeList xs
  | .obj kvs => JVal.firstOutOfRangeMembers kvs
def JVal.firstOutOfRangeList : List JVal → Option JNum
  | [] => none
  | x :: xs => x.firstOutOfRange <|> JVal.firstOutOfRangeList xs
def JVal.firstOutOfRangeMembers : List (String × JVal) → Option JNum
  | [] => none
  | (_, v) :: kvs => v.firstOutOfRange <|> JVal.firstOutOfRangeMembers kvs
end

/-- Every number in the value is within `float64`'s finite range. -/
def JVal.inRange (v : JVal) : Bool := v.firstOutOfRange.isNone

/-- The error of `json.Unmarshal` on a text holding `v`: the first number past `float64`'s range
does not fit the `float64` it is decoded into. -/
def JVal.unmarshalError (v : JVal) : Option String :=
  v.firstOutOfRange.map fun n =>
    "json: cannot unmarshal number " ++ n.text ++ " into Go value of type float64"

/-- The error of `json.Marshal` on the Go value of `v`: the first number past `float64`'s range,
an infinity in Go, is an unsupported value. -/
def JVal.marshalError (v : JVal) : Option String :=
  v.goValue.firstOutOfRange.map fun n => "json: unsupported value: " ++ n.toFloat64.formatF

mutual
/-- No object inside the value repeats a key. -/
def JVal.noDupKeys : JVal → Bool
  | .arr xs => JVal.noDupKeysList xs
  | .obj kvs => decide (kvs.map Prod.fst).Nodup && JVal.noDupKeysMembers kvs
  | _ => true
def JVal.noDupKeysList : List JVal → Bool
  | [] => true
  | x :: xs => x.noDupKeys && JVal.noDupKeysList xs
def JVal.noDupKeysMembers : List (String × JVal) → Bool
  | [] => true
  | (_, v) :: kvs => v.noDupKeys && JVal.noDupKeysMembers kvs
end

end NewApi
