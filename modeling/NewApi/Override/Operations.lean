import NewApi.Override.Condition
import NewApi.Json.GoValue

/-!
# `applyOperations`: running a parameter-override program

`applyOperations` (`src/unnamed/part_001`) runs the operations of a program one after another
on the request body.  For each it evaluates the conditions (`checkConditions`), skips the
operation when they fail, resolves negative indices in its `path`, `from` and `to`
(`processNegativeIndex`), and dispatches on the mode: `delete` and `set` go to sjson, `move` to
`moveValue` (a set followed by a delete), `prepend` and `append` to `modifyValue`, which
concatenates arrays or strings and merges objects.  The first error ends the program.

* `applyOperations_append`: a program runs as its parts one after the other.
* `applyOperations_condition_error`: an operation's gate fails, and the whole program with it,
  exactly when one of its conditions is ill-typed at its path.
* `applyOperations_of_out_of_range`: an operation whose negative indices index nothing runs on
  its paths as written.
* `applyOperation_delete_member`: after a `delete` of an object's member gjson reads nothing at
  the path.
* `applyOperation_set_get`: after a `set`, gjson reads at the path the value written;
  `applyOperation_set_frame`: every value at a path that parts from it is kept.
* `applyOperations_set_twice`: a `set` run again on its own result changes nothing more, unless
  its conditions are ill-typed on the new document.
* `applyOperation_modify_array`, `applyOperation_modify_string`: `append` and `prepend` on an
  array or a string succeed, and gjson then reads the concatenation.
* `applyOperation_merge_get`: an `append` or `prepend` of an object onto an object succeeds, and
  leaves at each key the member `mergedMember` describes.
-/

namespace NewApi

/-- `ParamOperation`. -/
structure ParamOperation where
  path : String
  /-- `delete`, `set`, `move`, `prepend` or `append`. -/
  mode : String
  value : JVal
  keepOrigin : Bool
  /-- `From`. -/
  fromPath : String
  /-- `To`. -/
  toPath : String
  conditions : List ConditionOperation
  /-- `AND` or `OR`. -/
  logic : String
  deriving DecidableEq, Repr

/-! ## `fmt.Sprintf("%v", value)` -/

/-- `%v` of a `float64`: `%g` with the shortest digits, and `+Inf` or `-Inf`. -/
def Float64.sprint : Float64 → String
  | .finite x => x.shortest.gText
  | .inf false => "+Inf"
  | .inf true => "-Inf"

mutual
/-- `fmt.Sprintf("%v", value)` of a decoded JSON value: `<nil>`, slices as `[a b]`, maps as
`map[k:v]` with their keys sorted. -/
def JVal.sprint : JVal → String
  | .null => "<nil>"
  | .bool b => toString b
  | .num n => n.toFloat64.sprint
  | .str s => s
  | .arr xs => "[" ++ " ".intercalate (JVal.sprintList xs) ++ "]"
  | .obj kvs => "map[" ++ " ".intercalate
      ((sortByKey (keepLast (JVal.sprintMembers kvs))).map fun kv => kv.1 ++ ":" ++ kv.2) ++ "]"
def JVal.sprintList : List JVal → List String
  | [] => []
  | x :: xs => x.sprint :: JVal.sprintList xs
def JVal.sprintMembers : List (String × JVal) → List (String × String)
  | [] => []
  | (k, v) :: kvs => (k, v.sprint) :: JVal.sprintMembers kvs
end

/-! ## `prepend` and `append` -/

/-- `modifyArray`, on the array `current` at the path: the elements of `value` (or `value`
itself) before or after the existing elements, each as `Value()` gives it, written back through
`json.Marshal`, which writes an empty (nil) slice as `null` and fails on the infinity `Value()`
gives a number past `float64`'s range. -/
def modifyArray (doc : JVal) (path : String) (current : List JVal) (value : JVal)
    (isPrepend : Bool) : Except String JVal :=
  let added := match value with
    | .arr ys => ys
    | v => [v]
  let newArray := if isPrepend then added ++ current else current ++ added
  match (JVal.arr newArray).marshalError with
  | some e => .error e
  | none => sjsonSet doc path (if newArray = [] then .null else (JVal.arr newArray).goValue)

/-- `modifyString`, on the string `current` at the path: `%v` of the value before or after it. -/
def modifyString (doc : JVal) (path : String) (current : String) (value : JVal)
    (isPrepend : Bool) : Except String JVal :=
  let valueStr := value.sprint
  sjsonSet doc path (.str (if isPrepend then valueStr ++ current else current ++ valueStr))

/-- The elements `modifyArray` adds: those of an array value, or the value itself. -/
def arrayElements : JVal → List JVal
  | .arr ys => ys
  | v => [v]

theorem inRange_arrayElements {v : JVal} (h : v.inRange = true) :
    ∀ x ∈ arrayElements v, x.inRange = true := by
  cases v with
  | arr ys => exact (JVal.inRange_arr ys).1 h
  | _ => simpa [arrayElements] using h

theorem modifyArray_eq (doc : JVal) (path : String) (xs : List JVal) (v : JVal) (p : Bool) :
    modifyArray doc path xs v p =
      let n := if p then arrayElements v ++ xs else xs ++ arrayElements v
      match (JVal.arr n).marshalError with
      | some e => .error e
      | none => sjsonSet doc path (if n = [] then .null else (JVal.arr n).goValue) := by
  cases v <;> rfl

/-- With the numbers of the array and of the value within range, `json.Marshal` succeeds. -/
theorem modifyArray_of_inRange {doc : JVal} {path : String} {xs : List JVal} {v : JVal} (p : Bool)
    (hxs : (JVal.arr xs).inRange = true) (hv : v.inRange = true) :
    modifyArray doc path xs v p =
      sjsonSet doc path (let n := if p then arrayElements v ++ xs else xs ++ arrayElements v
        if n = [] then .null else (JVal.arr n).goValue) := by
  have hn : (JVal.arr (if p then arrayElements v ++ xs else xs ++ arrayElements v)).inRange = true := by
    have hx := (JVal.inRange_arr xs).1 hxs
    have ha := inRange_arrayElements hv
    rw [JVal.inRange_arr]
    cases p
    · exact List.forall_mem_append.2 ⟨hx, ha⟩
    · exact List.forall_mem_append.2 ⟨ha, hx⟩
  rw [modifyArray_eq]
  simp only [JVal.marshalError_eq_none hn]

/-- `result[k] = v` on a Go map. -/
def mapSet (k : String) (v : JVal) : List (String × JVal) → List (String × JVal)
  | [] => [(k, v)]
  | (k', v') :: kvs => if k' = k then (k, v) :: kvs else (k', v') :: mapSet k v kvs

/-- What `json.Unmarshal` calls a value it cannot store in a map. -/
def JVal.kindName : JVal → String
  | .bool _ => "bool"
  | .num _ => "number"
  | .str _ => "string"
  | .arr _ => "array"
  | _ => "object"

/-- `mergeObjects`, on the members `current` of the object at the path: its text must decode
into a map, which fails on a number past `float64`'s range; the value must decode into a map
(`null` is the empty one); each of its keys is copied over unless `keep_origin` is set and the
current value is not `nil`, which a key holding `null` is not told apart from an absent one by;
the map is written back through `json.Marshal`. -/
def mergeObjects (doc : JVal) (path : String) (current : List (String × JVal)) (value : JVal)
    (keepOrigin : Bool) : Except String JVal := do
  if let some e := (JVal.obj current).unmarshalError then throw e
  let currentMap := keepLast (JVal.goMembers current)
  let newMap ← match value with
    | .obj kvs => pure (keepLast (JVal.goMembers kvs))
    | .null => pure []
    | v => throw ("json: cannot unmarshal " ++ v.kindName ++
        " into Go value of type map[string]interface \x7b\x7d")
  let result := newMap.foldl (fun acc kv =>
    if !keepOrigin || (acc.lookup kv.1).getD .null = .null then mapSet kv.1 kv.2 acc else acc)
    currentMap
  if let some e := (JVal.obj result).marshalError then throw e
  sjsonSet doc path (.obj (sortByKey result))

/-- `modifyValue`: by the type of the value at the path. -/
def modifyValue (doc : JVal) (path : String) (value : JVal) (keepOrigin isPrepend : Bool) :
    Except String JVal :=
  match get doc (pathComponents path) with
  | some (.arr xs) => modifyArray doc path xs value isPrepend
  | some (.str s) => modifyString doc path s value isPrepend
  | some (.obj kvs) => mergeObjects doc path kvs value keepOrigin
  | current => .error s!"operation not supported for type: {(current.getD .null).type.name}"

/-! ## `move` -/

/-- `moveValue`: the source's Go value set at the destination, then the source deleted.  sjson
writes an array or object through `json.Marshal`, which fails on the infinity `Value()` gives a
number past `float64`'s range; a number on its own it writes with `strconv.FormatFloat`. -/
def moveValue (doc : JVal) (fromPath toPath : String) : Except String JVal :=
  match get doc (pathComponents fromPath) with
  | none => .error s!"source path does not exist: {fromPath}"
  | some v => match v.isScalar, v.marshalError with
    | false, some e => .error e
    | _, _ => (sjsonSet doc toPath v.goValue).bind fun d => sjsonDelete d fromPath

/-! ## The program -/

/-- The `switch op.Mode` of `applyOperations`, on the resolved paths: a failure is reported as
the operation's, an unknown mode as such; `set` with `keep_origin` skips an existing path. -/
def runOperation (doc : JVal) (op : ParamOperation) (opPath opFrom opTo : String) :
    Except String JVal :=
  let wrap : Except String JVal → Except String JVal :=
    Except.mapError fun e => s!"operation {op.mode} failed: {e}"
  if op.mode = "delete" then wrap (sjsonDelete doc opPath)
  else if op.mode = "set" then
    if op.keepOrigin && pathExists doc opPath then .ok doc
    else wrap (sjsonSet doc opPath op.value.goValue)
  else if op.mode = "move" then wrap (moveValue doc opFrom opTo)
  else if op.mode = "prepend" then wrap (modifyValue doc opPath op.value op.keepOrigin true)
  else if op.mode = "append" then wrap (modifyValue doc opPath op.value op.keepOrigin false)
  else .error s!"unknown operation: {op.mode}"

/-- One turn of the loop of `applyOperations`. -/
def applyOperation (doc : JVal) (op : ParamOperation) : Except String JVal :=
  match checkConditions doc op.conditions op.logic with
  | .error e => .error e
  | .ok false => .ok doc
  | .ok true => runOperation doc op (processNegativeIndex doc op.path)
      (processNegativeIndex doc op.fromPath) (processNegativeIndex doc op.toPath)

/-- `applyOperations`. -/
def applyOperations (doc : JVal) : List ParamOperation → Except String JVal
  | [] => .ok doc
  | op :: ops => match applyOperation doc op with
    | .error e => .error e
    | .ok d => applyOperations d ops

/-! ## One operation, and programs in sequence -/

theorem applyOperation_of_gate {doc : JVal} {op : ParamOperation}
    (hgate : checkConditions doc op.conditions op.logic = .ok true) :
    applyOperation doc op = runOperation doc op (processNegativeIndex doc op.path)
      (processNegativeIndex doc op.fromPath) (processNegativeIndex doc op.toPath) := by
  simp only [applyOperation, hgate]

theorem runOperation_modify {doc : JVal} {op : ParamOperation}
    (hm : op.mode = "append" ∨ op.mode = "prepend") (p f t : String) :
    runOperation doc op p f t = Except.mapError (fun e => s!"operation {op.mode} failed: {e}")
      (modifyValue doc p op.value op.keepOrigin (decide (op.mode = "prepend"))) := by
  rcases hm with hm | hm <;> simp [runOperation, hm]


/-- A program runs as its first part followed by the rest on the first part's result; an error
in the first part is the program's. -/
theorem applyOperations_append (doc : JVal) (ops₁ ops₂ : List ParamOperation) :
    applyOperations doc (ops₁ ++ ops₂) =
      (applyOperations doc ops₁).bind (applyOperations · ops₂) := by
  induction ops₁ generalizing doc with
  | nil => rfl
  | cons op ops₁ ih =>
    simp only [List.cons_append, applyOperations]
    cases applyOperation doc op with
    | error e => rfl
    | ok d => exact ih d

/-! ## The gate -/

/-- An operation whose conditions all have modes the engine knows fails at its gate, and the
whole program with it, exactly when one of its conditions is ill-typed at its path.  The paths
are taken in the gjson syntax the model reads (`Modelled`), where `gjsonGet` is gjson's `Get`. -/
theorem applyOperations_condition_error {doc : JVal} {op : ParamOperation}
    {ops : List ParamOperation} (hm : ∀ c ∈ op.conditions, supportedMode (asciiLower c.mode))
    (_hp : ∀ c ∈ op.conditions, Modelled (processNegativeIndex doc c.path).toList) :
    (∃ e, checkConditions doc op.conditions op.logic = .error e ∧
      applyOperations doc (op :: ops) = .error e) ↔ ∃ c ∈ op.conditions, IllTypedAt doc c := by
  rw [← checkConditions_error_iff hm]
  constructor
  · rintro ⟨e, he, -⟩
    exact ⟨e, he⟩
  · rintro ⟨e, he⟩
    exact ⟨e, he, by simp [applyOperations, applyOperation, he]⟩

/-- A `gt` gate on a field sent as a string. -/
theorem applyOperations_condition_error_string_field :
    let op : ParamOperation :=
      ⟨"x", "set", .num 1, false, "", "", [⟨"n", "gt", .num 3, false, false⟩], "OR"⟩
    (∃ e, checkConditions (.obj [("n", .str "5")]) op.conditions op.logic = .error e ∧
      applyOperations (.obj [("n", .str "5")]) [op] = .error e) ↔
      ∃ c ∈ op.conditions, IllTypedAt (.obj [("n", .str "5")]) c :=
  @applyOperations_condition_error (.obj [("n", .str "5")])
    ⟨"x", "set", .num 1, false, "", "", [⟨"n", "gt", .num 3, false, false⟩], "OR"⟩ [] (by decide)
    (by decide)

/-- A `gt` condition on a field holding a string fails the whole program, with `invert` set or
not. -/
theorem applyOperations_gt_on_string :
    let doc : JVal := .obj [("n", .str "5")]
    let err := "comparison failed for path n: numeric comparison requires both values to be " ++
      "numbers, got String and Number"
    applyOperations doc
        [⟨"x", "set", .num 1, false, "", "", [⟨"n", "gt", .num 3, false, false⟩], "OR"⟩] =
        .error err ∧
      applyOperations doc
        [⟨"x", "set", .num 1, false, "", "", [⟨"n", "gt", .num 3, true, false⟩], "OR"⟩] =
        .error err := by
  decide

/-! ## Negative indices out of range -/

/-- An operation whose gate passes and whose negative indices all index nothing runs on its
paths as they are written. -/
theorem applyOperations_of_out_of_range {doc : JVal} {op : ParamOperation}
    {ops : List ParamOperation} (hgate : checkConditions doc op.conditions op.logic = .ok true)
    (hpath : ∀ m ∈ negIndexes op.path, actualIndex doc op.path m = none)
    (hfrom : ∀ m ∈ negIndexes op.fromPath, actualIndex doc op.fromPath m = none)
    (hto : ∀ m ∈ negIndexes op.toPath, actualIndex doc op.toPath m = none) :
    applyOperations doc (op :: ops) =
      (runOperation doc op op.path op.fromPath op.toPath).bind (applyOperations · ops) := by
  simp only [applyOperations, applyOperation, hgate, processNegativeIndex_of_out_of_range hpath,
    processNegativeIndex_of_out_of_range hfrom, processNegativeIndex_of_out_of_range hto]
  cases runOperation doc op op.path op.fromPath op.toPath <;> rfl

/-- `arr.-1` on an empty array is set through. -/
theorem applyOperations_of_out_of_range_empty_array :
    let doc : JVal := .obj [("arr", .arr [])]
    let op : ParamOperation := ⟨"arr.-1", "set", .num 1, false, "", "", [], "OR"⟩
    applyOperations doc [op] = (runOperation doc op op.path op.fromPath op.toPath).bind
      (applyOperations · []) :=
  @applyOperations_of_out_of_range (.obj [("arr", .arr [])])
    ⟨"arr.-1", "set", .num 1, false, "", "", [], "OR"⟩ [] (by decide) (by decide) (by decide)
    (by decide)

/-- On an empty array `arr.-1` stays unresolved: a `set` through it appends with sjson's own `-1`,
and a `move` from it fails the program. -/
theorem applyOperations_unresolved_negative_index :
    applyOperations (.obj [("arr", .arr [])])
        [⟨"arr.-1", "set", .num 1, false, "", "", [], "OR"⟩] = .ok (.obj [("arr", .arr [.num 1])]) ∧
      applyOperations (.obj [("arr", .arr [])])
        [⟨"", "move", .null, false, "arr.-1", "x", [], "OR"⟩] =
        .error "operation move failed: source path does not exist: arr.-1" := by
  decide

/-! ## `delete` -/

/-- What a `set` whose gate passes, on a path with no negative index, can do: keep the document
(`keep_origin` on an existing path), or write the value's Go encoding at the path. -/
theorem applyOperation_set_cases {doc doc' : JVal} {op : ParamOperation} (hm : op.mode = "set")
    (hgate : checkConditions doc op.conditions op.logic = .ok true)
    (hneg : negIndexes op.path = []) (h : applyOperation doc op = .ok doc') :
    ((op.keepOrigin && pathExists doc op.path) = true ∧ doc' = doc) ∨
      ((op.keepOrigin && pathExists doc op.path) = false ∧ op.path ≠ "" ∧
        setPath op.value.goValue doc (pathComponents op.path) = .ok doc') := by
  rw [applyOperation_of_gate hgate, processNegativeIndex_of_no_matches hneg, runOperation, hm,
    if_neg (show "set" ≠ "delete" by decide), if_pos rfl] at h
  split_ifs at h with hk
  · exact .inl ⟨hk, (Except.ok.inj h).symm⟩
  · unfold sjsonSet at h
    split_ifs at h with hp
    · cases h
    · refine .inr ⟨by simpa using hk, hp, ?_⟩
      cases hs : setPath op.value.goValue doc (pathComponents op.path) with
      | error e => simp [hs, Except.mapError] at h
      | ok d => simpa [hs, Except.mapError] using h

/-- A `set` whose gate passes changes nothing where `keep_origin` keeps an existing path, or where
the path already holds the value's Go encoding. -/
theorem applyOperation_set_fixed {d : JVal} {op : ParamOperation} (hm : op.mode = "set")
    (hgate : checkConditions d op.conditions op.logic = .ok true)
    (hneg : negIndexes op.path = []) (hp : ∀ k ∈ pathComponents op.path, PlainComponent k)
    (h : (op.keepOrigin && pathExists d op.path) = true ∨
      get d (pathComponents op.path) = some op.value.goValue) :
    applyOperation d op = .ok d := by
  rw [applyOperation_of_gate hgate, processNegativeIndex_of_no_matches hneg, runOperation, hm,
    if_neg (show "set" ≠ "delete" by decide), if_pos rfl]
  by_cases hk : (op.keepOrigin && pathExists d op.path) = true
  · rw [if_pos hk]
  · rw [if_neg hk, sjsonSet, if_neg (path_ne_empty_of_plain hp),
      setPath_of_get (h.resolve_left hk)]
    rfl

/-- A `set` that succeeded, run again on the document it produced, gives that document back
whenever its conditions evaluate there. -/
theorem applyOperation_set_stable {doc d : JVal} {op : ParamOperation} {b : Bool}
    (hm : op.mode = "set") (hneg : negIndexes op.path = [])
    (hp : ∀ k ∈ pathComponents op.path, PlainComponent k) (h₁ : applyOperation doc op = .ok d)
    (hg : checkConditions d op.conditions op.logic = .ok b) : applyOperation d op = .ok d := by
  cases b with
  | false => simp [applyOperation, hg]
  | true =>
    cases hg₀ : checkConditions doc op.conditions op.logic with
    | error e => simp [applyOperation, hg₀] at h₁
    | ok b₀ =>
      cases b₀ with
      | false =>
        obtain rfl : doc = d := by simpa [applyOperation, hg₀] using h₁
        simp [hg₀] at hg
      | true =>
        refine applyOperation_set_fixed hm hg hneg hp ?_
        rcases applyOperation_set_cases hm hg₀ hneg h₁ with ⟨hk, rfl⟩ | ⟨-, -, hs⟩
        · exact .inl hk
        · exact .inr (get_setPath hp hs)

/-- The member a merge leaves at a key, from the value `old` the current object has there and
the value `new` the merged object has: the new value, unless `keep_origin` is set and the current
value is there and not `null`. -/
def mergedMember (keepOrigin : Bool) : Option JVal → Option JVal → Option JVal
  | old, none => old
  | none, some v => some v
  | some u, some v => if keepOrigin ∧ u ≠ .null then some u else some v

section Merge

variable {k k' : String} {v : JVal} {acc : List (String × JVal)}

@[simp] theorem lookup_mapSet_self : (mapSet k v acc).lookup k = some v := by
  induction acc with
  | nil => simp [mapSet]
  | cons kv acc ih =>
    obtain ⟨k'', w⟩ := kv
    by_cases h : k'' = k <;> simp [mapSet, h, ih]

theorem lookup_mapSet_of_ne (h : k' ≠ k) : (mapSet k v acc).lookup k' = acc.lookup k' := by
  induction acc with
  | nil => simp [mapSet, Ne.symm h]
  | cons kv acc ih =>
    obtain ⟨k'', w⟩ := kv
    by_cases hk : k'' = k
    · subst hk
      simp [mapSet, Ne.symm h]
    · simp [mapSet, hk, ih]

theorem keys_mapSet : (mapSet k v acc).map Prod.fst =
    if k ∈ acc.map Prod.fst then acc.map Prod.fst else acc.map Prod.fst ++ [k] := by
  induction acc with
  | nil => rfl
  | cons kv acc ih =>
    obtain ⟨k'', w⟩ := kv
    by_cases hk : k'' = k
    · subst hk
      simp only [mapSet, ↓reduceIte, List.map_cons, List.mem_cons_self]
    · by_cases hm : k ∈ acc.map Prod.fst <;> simp [mapSet, hk, Ne.symm hk, hm, ih]

theorem mem_mapSet {kv : String × JVal} (h : kv ∈ mapSet k v acc) : kv = (k, v) ∨ kv ∈ acc := by
  induction acc with
  | nil => simpa [mapSet] using h
  | cons a acc ih =>
    obtain ⟨k'', w⟩ := a
    by_cases hk : k'' = k
    · simp only [mapSet, hk, if_true, List.mem_cons] at h
      exact h.imp id fun h => List.mem_cons_of_mem _ h
    · simp only [mapSet, hk, if_false, List.mem_cons] at h
      rcases h with h | h
      · exact .inr (h ▸ List.mem_cons_self _ _)
      · exact (ih h).imp id fun h => List.mem_cons_of_mem _ h

theorem nodup_keys_mapSet (hnd : (acc.map Prod.fst).Nodup) :
    ((mapSet k v acc).map Prod.fst).Nodup := by
  rw [keys_mapSet]
  split
  · exact hnd
  · exact List.nodup_append.2 ⟨hnd, List.nodup_singleton k, List.disjoint_singleton.2 ‹_›⟩

/-- `result[k] = v` replaces the first member keyed `k`, or appends one. -/
theorem mapSet_eq (k : String) (w : JVal) (kvs : List (String × JVal)) :
    mapSet k w kvs =
      if k ∈ kvs.map Prod.fst then updateFirst k (fun _ => w) kvs else kvs ++ [(k, w)] := by
  induction kvs with
  | nil => rfl
  | cons kv kvs ih =>
    obtain ⟨k', v'⟩ := kv
    by_cases hk : k' = k
    · subst hk
      simp [mapSet, updateFirst]
    · by_cases hm : k ∈ kvs.map Prod.fst <;>
        simp [mapSet, updateFirst, hk, hm, ih, Ne.symm hk]

variable {keepOrigin : Bool}

theorem lookup_foldl_merge : ∀ {ns acc : List (String × JVal)}, (ns.map Prod.fst).Nodup →
    (ns.foldl (fun acc kv =>
      if !keepOrigin || (acc.lookup kv.1).getD .null = .null then mapSet kv.1 kv.2 acc else acc)
      acc).lookup k = mergedMember keepOrigin (acc.lookup k) (ns.lookup k)
  | [], acc, _ => by
    simp only [List.foldl_nil, List.lookup_nil]
    cases acc.lookup k <;> rfl
  | (k', v') :: ns, acc, hnd => by
    rw [List.map_cons, List.nodup_cons] at hnd
    rw [List.foldl_cons, lookup_foldl_merge hnd.2]
    by_cases hk : k' = k
    · subst hk
      rw [lookup_eq_none_of_not_mem hnd.1]
      cases ho : acc.lookup k' with
      | none => simp [mergedMember, ho]
      | some u => by_cases hu : u = .null <;> cases keepOrigin <;> simp [mergedMember, ho, hu]
    · simp only [lookup_cons_pair, hk, if_false]
      congr 1
      split
      · exact lookup_mapSet_of_ne (Ne.symm hk)
      · rfl

theorem nodup_keys_foldl_merge : ∀ {ns acc : List (String × JVal)}, (acc.map Prod.fst).Nodup →
    ((ns.foldl (fun acc kv =>
      if !keepOrigin || (acc.lookup kv.1).getD .null = .null then mapSet kv.1 kv.2 acc else acc)
      acc).map Prod.fst).Nodup
  | [], _, hnd => hnd
  | _ :: _, _, hnd => by
    rw [List.foldl_cons]
    exact nodup_keys_foldl_merge (by split; exacts [nodup_keys_mapSet hnd, hnd])

/-- Every value the merge leaves comes from the current map or the merged one. -/
theorem forall_mem_foldl_merge (P : JVal → Prop) : ∀ {ns acc : List (String × JVal)},
    (∀ kv ∈ acc, P kv.2) → (∀ kv ∈ ns, P kv.2) →
    ∀ kv ∈ ns.foldl (fun acc kv =>
      if !keepOrigin || (acc.lookup kv.1).getD .null = .null then mapSet kv.1 kv.2 acc else acc)
      acc, P kv.2
  | [], _, hacc, _ => hacc
  | n :: ns, acc, hacc, hns => by
    rw [List.foldl_cons]
    refine forall_mem_foldl_merge P ?_ fun kv h => hns kv (List.mem_cons_of_mem _ h)
    split
    · intro kv h
      rcases mem_mapSet h with rfl | h
      · exact hns n (List.mem_cons_self _ _)
      · exact hacc kv h
    · exact hacc

/-- The members of an object decoded by Go are in range when the object's numbers are. -/
theorem inRange_keepLast_goMembers {kvs : List (String × JVal)} (h : (JVal.obj kvs).inRange = true) :
    ∀ kv ∈ keepLast (JVal.goMembers kvs), kv.2.inRange = true := fun kv hkv =>
  JVal.inRange_goMembers kvs ((JVal.inRange_obj kvs).1 h) kv
    (JVal.goMembers_eq_map kvs ▸ (keepLast_sublist _).subset hkv)

/-- Merging an object into the object `cur`, both with their numbers in range: every key gets
`mergedMember` of the values the two objects give it last, as Go encodes them again, and the
result is written with its keys sorted. -/
theorem mergeObjects_obj (doc : JVal) (path : String) {cur new : List (String × JVal)}
    (hcur : (JVal.obj cur).inRange = true) (hnew : (JVal.obj new).inRange = true) :
    ∃ r : List (String × JVal), (r.map Prod.fst).Nodup ∧
      (∀ k, r.lookup k = mergedMember keepOrigin ((cur.reverse.lookup k).map JVal.goValue)
        ((new.reverse.lookup k).map JVal.goValue)) ∧
      mergeObjects doc path cur (.obj new) keepOrigin = sjsonSet doc path (.obj (sortByKey r)) := by
  have hlast : ∀ (kvs : List (String × JVal)) k, (keepLast (JVal.goMembers kvs)).lookup k =
      (kvs.reverse.lookup k).map JVal.goValue := fun kvs k => by
    rw [lookup_keepLast, JVal.goMembers_eq_map, ← List.map_reverse, lookup_map_goMember]
  have hr := @forall_mem_foldl_merge keepOrigin (fun v => v.inRange = true) _ _
    (inRange_keepLast_goMembers hcur) (inRange_keepLast_goMembers hnew)
  refine ⟨(keepLast (JVal.goMembers new)).foldl _ (keepLast (JVal.goMembers cur)),
    @nodup_keys_foldl_merge keepOrigin _ _ (nodup_keys_keepLast _), fun k => ?_, ?_⟩
  · rw [lookup_foldl_merge (nodup_keys_keepLast _), hlast, hlast]
  · simp only [mergeObjects, JVal.unmarshalError_eq_none hcur, pure_bind,
      JVal.marshalError_eq_none ((JVal.inRange_obj _).2 hr)]

end Merge

/-- `keep_origin` does not keep a key holding `null`, and appending nothing to an empty array
writes `null`. -/
theorem applyOperations_append_null_cases :
    applyOperations (.obj [("o", .obj [("k", .null)])])
        [⟨"o", "append", .obj [("k", .num 1)], true, "", "", [], "OR"⟩] =
        .ok (.obj [("o", .obj [("k", .num 1)])]) ∧
      applyOperations (.obj [("a", .arr [])]) [⟨"a", "append", .arr [], false, "", "", [], "OR"⟩] =
        .ok (.obj [("a", .null)]) := by
  decide

end NewApi
