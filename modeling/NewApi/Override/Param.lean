import NewApi.Override.Operations

/-!
# `ApplyParamOverride`: a structured program or the legacy merge

`ApplyParamOverride` (`src/unnamed/part_001`) applies a channel's parameter override, a map
decoded from JSON, to the request body.  An empty map changes nothing.  When the map's
`operations` entry is an array that `tryParseOperations` can read as `ParamOperation`s, the body
is run through `applyOperations`.  Otherwise `applyOperationsLegacy` decodes the body into a map,
copies every entry of the override into it and encodes the map again.

`tryParseOperations` reads each element of the array field by field.  `mode` must be a string;
every other field that is missing or of another type keeps its zero value, except `logic`, which
becomes `OR`.  A condition that is not an object is skipped, while one element that is not an
object or has no string `mode` makes the whole array unreadable.

* `parseOperations_eq_some_iff`: the array is read exactly when each element is, in order.
* `tryParseOperations_encode`, `applyParamOverride_programMap`: a program written out under
  `ParamOperation`'s JSON tags is read back, and run, as itself, up to Go's encoding of its values
  and the default `logic`.
* `applyParamOverride_legacy`: on the legacy path an object body gets every key of the override
  with the override's value and keeps its other keys, and is written with its keys sorted;
  `applyParamOverride_legacy_not_object`: any other body is an error, or for `null` a panic.
* `applyParamOverride_legacy_idem`: applying a legacy override twice is applying it once.
* `applyParamOverride_perm`: the result does not depend on the order of the map's entries,
  which Go leaves unspecified.
* `applyParamOverride_legacy_as_program`: a legacy override means what the program of one `set`
  per entry means, up to Go's encoding, on a body in which no key repeats.
-/

namespace NewApi

/-! ## The override map -/

/-- A `map[string]interface{}` decoded from JSON: its entries, in an order Go does not fix, with
no key twice. -/
structure GoMap where
  entries : List (String × JVal)
  nodup : (entries.map Prod.fst).Nodup

/-- `v.(string)` on the entry `v` of a map: its text, when it is there and a string. -/
def assertString : Option JVal → Option String
  | some (.str s) => some s
  | _ => none

theorem isSome_assertString_iff {o : Option JVal} :
    (assertString o).isSome ↔ ∃ s, o = some (.str s) := by
  rcases o with _ | (_ | _ | _ | s | _ | _) <;> simp [assertString]

/-- `v.(bool)`. -/
def assertBool : Option JVal → Option Bool
  | some (.bool b) => some b
  | _ => none

/-! ## `tryParseOperations` -/

/-- One element of `conditions`, read field by field; a field that is missing or of another type
keeps its zero value. -/
def parseCondition (condMap : List (String × JVal)) : ConditionOperation :=
  { path := (assertString (condMap.lookup "path")).getD ""
    mode := (assertString (condMap.lookup "mode")).getD ""
    value := (condMap.lookup "value").getD .null
    invert := (assertBool (condMap.lookup "invert")).getD false
    passMissingKey := (assertBool (condMap.lookup "pass_missing_key")).getD false }

/-- The loop over `condSlice`: an element that is not an object is skipped. -/
def parseConditions : List JVal → List ConditionOperation
  | [] => []
  | .obj condMap :: rest => parseCondition condMap :: parseConditions rest
  | _ :: rest => parseConditions rest

/-- One element of `operations`: nothing without a string `mode`; `logic` defaults to `OR`, and
`conditions` is read only when it is an array. -/
def parseOperation (opMap : List (String × JVal)) : Option ParamOperation :=
  (assertString (opMap.lookup "mode")).map fun mode =>
    { path := (assertString (opMap.lookup "path")).getD ""
      mode
      value := (opMap.lookup "value").getD .null
      keepOrigin := (assertBool (opMap.lookup "keep_origin")).getD false
      fromPath := (assertString (opMap.lookup "from")).getD ""
      toPath := (assertString (opMap.lookup "to")).getD ""
      conditions := match opMap.lookup "conditions" with
        | some (.arr condSlice) => parseConditions condSlice
        | _ => []
      logic := (assertString (opMap.lookup "logic")).getD "OR" }

/-- The loop over `opsSlice`: it gives up at the first element that is not an object or that
`parseOperation` cannot read. -/
def parseOperations : List JVal → Option (List ParamOperation)
  | [] => some []
  | .obj opMap :: rest => match parseOperation opMap with
    | none => none
    | some op => (parseOperations rest).map (op :: ·)
  | _ :: _ => none

/-- `tryParseOperations`: the `operations` entry must be an array whose elements all read. -/
def tryParseOperations (paramOverride : GoMap) : Option (List ParamOperation) :=
  match paramOverride.entries.lookup "operations" with
  | some (.arr opsSlice) => parseOperations opsSlice
  | _ => none

/-! ## `ApplyParamOverride` -/

/-- The map `applyOperationsLegacy` builds from the members of an object body: each key at its
last value, as Go decodes it, then `reqMap[key] = value` for each entry of the override. -/
def legacyMap (kvs : List (String × JVal)) (paramOverride : GoMap) : List (String × JVal) :=
  paramOverride.entries.foldl (fun reqMap kv => mapSet kv.1 kv.2 reqMap)
    (keepLast (JVal.goMembers kvs))

/-- `applyOperationsLegacy`: `json.Unmarshal` of the body into a map, `reqMap[key] = value` for
each entry of the override, and `json.Marshal` of the map.  A body that is not an object does not
decode into a map, nor does one holding a number past `float64`'s range; a value past it, an
infinity in Go, does not encode.  `null` decodes into a nil map, and the first assignment to it
panics; the panic is modelled as an error carrying its message. -/
def applyOperationsLegacy (jsonData : JVal) (paramOverride : GoMap) : Except String JVal :=
  match jsonData with
  | .obj kvs => match (JVal.obj kvs).unmarshalError, (JVal.obj (legacyMap kvs paramOverride)).marshalError with
    | some e, _ | none, some e => .error e
    | none, none => .ok (JVal.obj (legacyMap kvs paramOverride)).goValue
  | .null =>
    if paramOverride.entries.isEmpty then .ok .null else .error "assignment to entry in nil map"
  | v => .error ("json: cannot unmarshal " ++ v.kindName ++
      " into Go value of type map[string]interface \x7b\x7d")

/-- `ApplyParamOverride`. -/
def applyParamOverride (jsonData : JVal) (paramOverride : GoMap) : Except String JVal :=
  if paramOverride.entries.length = 0 then .ok jsonData
  else match tryParseOperations paramOverride with
    | some operations => applyOperations jsonData operations
    | none => applyOperationsLegacy jsonData paramOverride

/-! ## What `tryParseOperations` reads -/

theorem parseOperation_isSome_iff (opMap : List (String × JVal)) :
    (parseOperation opMap).isSome ↔ ∃ mode, opMap.lookup "mode" = some (.str mode) := by
  simpa only [parseOperation, Option.isSome_map'] using isSome_assertString_iff

/-- The array is read exactly when every element is an object that `parseOperation` reads, and
then the program is those operations in order. -/
theorem parseOperations_eq_some_iff {xs : List JVal} {ops : List ParamOperation} :
    parseOperations xs = some ops ↔
      List.Forall₂ (fun x op => ∃ opMap, x = .obj opMap ∧ parseOperation opMap = some op) xs ops := by
  induction xs generalizing ops with
  | nil => cases ops <;> simp [parseOperations]
  | cons x rest ih =>
    cases x with
    | obj opMap =>
      cases ops with
      | nil => cases h : parseOperation opMap <;> simp [parseOperations, h]
      | cons op ops =>
        rw [List.forall₂_cons, ← ih]
        cases h : parseOperation opMap
        · simp [parseOperations, h]
        · simp [parseOperations, h]
          exact and_comm
    | _ => cases ops <;> simp [parseOperations]

/-! ## `ParamOperation` as JSON -/

/-- `json.Marshal` of a `ConditionOperation`, decoded again: each field under its tag. -/
def encodeCondition (c : ConditionOperation) : JVal :=
  .obj [("path", .str c.path), ("mode", .str c.mode), ("value", c.value.goValue),
    ("invert", .bool c.invert), ("pass_missing_key", .bool c.passMissingKey)]

/-- The members `json.Marshal` writes for a `ParamOperation`, decoded again: each field under
its tag, where `from`, `to`, `conditions` and `logic` are `omitempty` and left out when empty. -/
def operationMembers (op : ParamOperation) : List (String × JVal) :=
  [("path", .str op.path), ("mode", .str op.mode), ("value", op.value.goValue),
      ("keep_origin", .bool op.keepOrigin)] ++
    (if op.fromPath = "" then [] else [("from", .str op.fromPath)]) ++
    (if op.toPath = "" then [] else [("to", .str op.toPath)]) ++
    (if op.conditions = [] then [] else [("conditions", .arr (op.conditions.map encodeCondition))]) ++
    (if op.logic = "" then [] else [("logic", .str op.logic)])

/-- `json.Marshal` of a `ParamOperation`, decoded again. -/
def encodeOperation (op : ParamOperation) : JVal := .obj (operationMembers op)

/-- The override `{"operations": [...]}` holding a program. -/
def programMap (ops : List ParamOperation) : GoMap :=
  ⟨[("operations", .arr (ops.map encodeOperation))], List.nodup_singleton _⟩

/-- What the round trip through JSON leaves of a condition: its value as Go encodes it. -/
def ConditionOperation.goForm (c : ConditionOperation) : ConditionOperation :=
  { c with value := c.value.goValue }

/-- What the round trip through JSON leaves of an operation: its values as Go encodes them, and
`OR` for an empty `logic`. -/
def ParamOperation.goForm (op : ParamOperation) : ParamOperation :=
  { op with value := op.value.goValue, conditions := op.conditions.map ConditionOperation.goForm
            logic := if op.logic = "" then "OR" else op.logic }

theorem parseConditions_encode (cs : List ConditionOperation) :
    parseConditions (cs.map encodeCondition) = cs.map ConditionOperation.goForm := by
  induction cs with
  | nil => rfl
  | cons c cs ih =>
    simp [parseConditions, encodeCondition, parseCondition, assertString, assertBool, ih,
      ConditionOperation.goForm]

theorem parseOperation_operationMembers (op : ParamOperation) :
    parseOperation (operationMembers op) = some op.goForm := by
  by_cases h₁ : op.fromPath = "" <;> by_cases h₂ : op.toPath = "" <;>
    by_cases h₃ : op.conditions = [] <;> by_cases h₄ : op.logic = "" <;>
    simp [parseOperation, operationMembers, assertString, assertBool, List.lookup_append,
      ParamOperation.goForm, parseConditions_encode, h₁, h₂, h₃, h₄]

theorem tryParseOperations_encode (ops : List ParamOperation) :
    tryParseOperations (programMap ops) = some (ops.map ParamOperation.goForm) := by
  have h : parseOperations (ops.map encodeOperation) = some (ops.map ParamOperation.goForm) := by
    induction ops with
    | nil => rfl
    | cons op ops ih =>
      simp [encodeOperation, parseOperations, parseOperation_operationMembers, ih]
  simpa [tryParseOperations, programMap] using h

/-- A program written out as the override `{"operations": [...]}` is run on the body as itself,
up to Go's encoding of its values and the default `logic`. -/
theorem applyParamOverride_programMap (doc : JVal) (ops : List ParamOperation) :
    applyParamOverride doc (programMap ops) = applyOperations doc (ops.map ParamOperation.goForm) := by
  rw [applyParamOverride, if_neg (by simp [programMap]), tryParseOperations_encode]

/-! ## The legacy merge -/

section Legacy

variable {ns acc : List (String × JVal)} {k : String}

theorem lookup_foldl_mapSet (hnd : (ns.map Prod.fst).Nodup) :
    (ns.foldl (fun acc kv => mapSet kv.1 kv.2 acc) acc).lookup k =
      (ns.lookup k).or (acc.lookup k) := by
  have h := @lookup_foldl_merge k false ns acc hnd
  simp only [Bool.not_false, Bool.true_or, if_true] at h
  rw [h]
  cases acc.lookup k <;> cases ns.lookup k <;> rfl

theorem nodup_keys_foldl_mapSet (hnd : (acc.map Prod.fst).Nodup) :
    ((ns.foldl (fun acc kv => mapSet kv.1 kv.2 acc) acc).map Prod.fst).Nodup := by
  have h := @nodup_keys_foldl_merge false ns acc hnd
  simpa only [Bool.not_false, Bool.true_or, if_true] using h

theorem forall_mem_foldl_mapSet (P : JVal → Prop) (hacc : ∀ kv ∈ acc, P kv.2)
    (hns : ∀ kv ∈ ns, P kv.2) : ∀ kv ∈ ns.foldl (fun acc kv => mapSet kv.1 kv.2 acc) acc, P kv.2 := by
  have h := @forall_mem_foldl_merge false P ns acc hacc hns
  simpa only [Bool.not_false, Bool.true_or, if_true] using h

end Legacy

/-- The map the legacy merge writes: every key holds the override's value if it has one, and
otherwise the last value the body gives it, as Go encodes them; the keys come out sorted. -/
theorem legacyMap_goValue (kvs : List (String × JVal)) (m : GoMap) :
    ∃ r : List (String × JVal), (JVal.obj (legacyMap kvs m)).goValue = .obj r ∧
      (JVal.obj r).goValue = .obj r ∧ r.Sorted keyLT ∧
      ∀ k, r.lookup k = ((m.entries.lookup k).or (kvs.reverse.lookup k)).map JVal.goValue := by
  have hnd : (((legacyMap kvs m).map goMember).map Prod.fst).Nodup := by
    rw [keys_map_goMember]
    exact nodup_keys_foldl_mapSet (nodup_keys_keepLast _)
  have hgo : (JVal.obj (legacyMap kvs m)).goValue = .obj (sortByKey ((legacyMap kvs m).map goMember)) := by
    simp only [JVal.goValue_obj, keepLast_of_nodup hnd]
  refine ⟨_, hgo, by rw [← hgo, JVal.goValue_goValue], sorted_keyLT_of_nodup (sorted_sortByKey _)
    (((perm_sortByKey _).map Prod.fst).nodup_iff.2 hnd), fun k => ?_⟩
  rw [lookup_sortByKey hnd, lookup_map_goMember, legacyMap, lookup_foldl_mapSet m.nodup,
    lookup_keepLast, JVal.goMembers_eq_map, ← List.map_reverse, lookup_map_goMember]
  cases m.entries.lookup k <;> simp [Function.comp_def, JVal.goValue_goValue]

/-- The legacy map of a body and an override whose numbers are in range is in range. -/
theorem inRange_legacyMap {kvs : List (String × JVal)} {m : GoMap}
    (hkvs : (JVal.obj kvs).inRange = true) (hmr : ∀ kv ∈ m.entries, kv.2.inRange = true) :
    (JVal.obj (legacyMap kvs m)).inRange = true :=
  (JVal.inRange_obj _).2 (forall_mem_foldl_mapSet (fun v => v.inRange = true)
    (fun kv hkv => JVal.inRange_goMembers kvs ((JVal.inRange_obj kvs).1 hkvs) kv
      (JVal.goMembers_eq_map kvs ▸ (keepLast_sublist _).subset hkv)) hmr)

theorem applyOperationsLegacy_of_inRange {kvs : List (String × JVal)} {m : GoMap}
    (hkvs : (JVal.obj kvs).inRange = true) (hmr : ∀ kv ∈ m.entries, kv.2.inRange = true) :
    applyOperationsLegacy (.obj kvs) m = .ok (JVal.obj (legacyMap kvs m)).goValue := by
  simp only [applyOperationsLegacy, JVal.unmarshalError_eq_none hkvs,
    JVal.marshalError_eq_none (inRange_legacyMap hkvs hmr)]

theorem applyParamOverride_of_legacy {m : GoMap} (hm : m.entries ≠ [])
    (hp : tryParseOperations m = none) (doc : JVal) :
    applyParamOverride doc m = applyOperationsLegacy doc m := by
  rw [applyParamOverride, if_neg (by simpa using hm), hp]

/-- On the legacy path an object body gets every key of the override with the override's value
and keeps the last value of each of its other keys, all as Go encodes them, and is written with
its keys sorted, when the numbers of the body and of the override are within `float64`'s
range. -/
theorem applyParamOverride_legacy {m : GoMap} (hm : m.entries ≠ [])
    (hp : tryParseOperations m = none) (kvs : List (String × JVal))
    (hkvs : (JVal.obj kvs).inRange = true) (hmr : ∀ kv ∈ m.entries, kv.2.inRange = true) :
    ∃ r : List (String × JVal), applyParamOverride (.obj kvs) m = .ok (.obj r) ∧
      r.Sorted keyLT ∧
      ∀ k, r.lookup k = ((m.entries.lookup k).or (kvs.reverse.lookup k)).map JVal.goValue := by
  obtain ⟨r, hgo, -, hs, hl⟩ := legacyMap_goValue kvs m
  rw [applyParamOverride_of_legacy hm hp, applyOperationsLegacy_of_inRange hkvs hmr, hgo]
  exact ⟨r, rfl, hs, hl⟩

/-- An override without `operations` sets `temperature` and keeps `model`. -/
theorem applyParamOverride_legacy_temperature :
    ∃ r : List (String × JVal),
      applyParamOverride (.obj [("model", .str "m"), ("temperature", .num 1)])
        ⟨[("temperature", .num 0)], by decide⟩ = .ok (.obj r) ∧ r.Sorted keyLT ∧
      ∀ k, r.lookup k = (([("temperature", .num 0)].lookup k).or
        ([("model", .str "m"), ("temperature", .num 1)].reverse.lookup k)).map JVal.goValue :=
  applyParamOverride_legacy (m := ⟨[("temperature", .num 0)], by decide⟩) (by decide) rfl _
    (by decide) (by decide)

/-- On the legacy path a body holding a number past `float64`'s range does not decode. -/
theorem applyParamOverride_legacy_out_of_range {m : GoMap} (hm : m.entries ≠ [])
    (hp : tryParseOperations m = none) {kvs : List (String × JVal)} {e : String}
    (he : (JVal.obj kvs).unmarshalError = some e) :
    applyParamOverride (.obj kvs) m = .error e := by
  rw [applyParamOverride_of_legacy hm hp]
  simp only [applyOperationsLegacy, he]

/-- On the legacy path a body that is not an object is an error; `null` makes the assignment to
the nil map panic. -/
theorem applyParamOverride_legacy_not_object {m : GoMap} (hm : m.entries ≠ [])
    (hp : tryParseOperations m = none) {doc : JVal} (hdoc : ∀ kvs, doc ≠ .obj kvs) :
    applyParamOverride doc m =
      .error (if doc = .null then "assignment to entry in nil map"
        else "json: cannot unmarshal " ++ doc.kindName ++
          " into Go value of type map[string]interface \x7b\x7d") := by
  rw [applyParamOverride_of_legacy hm hp]
  cases doc with
  | obj kvs => exact absurd rfl (hdoc kvs)
  | null => simp [applyOperationsLegacy, hm]
  | _ => simp [applyOperationsLegacy]

/-- Applying a legacy override to the body it produced changes nothing. -/
theorem applyParamOverride_legacy_idem {m : GoMap} (hm : m.entries ≠ [])
    (hp : tryParseOperations m = none) (doc : JVal) :
    (applyParamOverride doc m).bind (applyParamOverride · m) = applyParamOverride doc m := by
  rw [applyParamOverride_of_legacy hm hp]
  cases doc with
  | obj kvs =>
    obtain ⟨r, hgo, hr, hs, hl⟩ := legacyMap_goValue kvs m
    obtain ⟨r', hgo', -, hs', hl'⟩ := legacyMap_goValue r m
    have hrr : r' = r := eq_of_lookup_eq_of_sorted hs' hs fun k => by
      rw [hl', lookup_of_perm (List.reverse_perm r) ((List.reverse_perm r).map Prod.fst |>.nodup_iff.2
        (nodup_keys_of_sorted hs)), hl]
      cases m.entries.lookup k <;> simp [Function.comp_def, JVal.goValue_goValue]
    have hme : (JVal.obj (legacyMap r m)).marshalError = (JVal.obj (legacyMap kvs m)).marshalError :=
      JVal.marshalError_eq_of_goValue (by rw [hgo', hrr, hgo])
    simp only [applyOperationsLegacy]
    cases hu : (JVal.obj kvs).unmarshalError with
    | some e => rfl
    | none =>
      cases he : (JVal.obj (legacyMap kvs m)).marshalError with
      | some e => rfl
      | none =>
        have hu' : (JVal.obj r).unmarshalError = none := by
          rw [JVal.marshalError, hgo] at he
          simpa [JVal.unmarshalError] using he
        show applyParamOverride (JVal.obj (legacyMap kvs m)).goValue m =
          .ok (JVal.obj (legacyMap kvs m)).goValue
        rw [hgo, applyParamOverride_of_legacy hm hp]
        simp only [applyOperationsLegacy, hu', hme, he, hgo', hrr]
  | null => simp [applyOperationsLegacy, hm]; rfl
  | _ => rfl

/-- Overriding `temperature` twice gives the body overriding it once gives. -/
theorem applyParamOverride_legacy_idem_temperature :
    (applyParamOverride (.obj [("model", .str "m")]) ⟨[("temperature", .num 0)], by decide⟩).bind
        (applyParamOverride · ⟨[("temperature", .num 0)], by decide⟩) =
      applyParamOverride (.obj [("model", .str "m")]) ⟨[("temperature", .num 0)], by decide⟩ :=
  applyParamOverride_legacy_idem (m := ⟨[("temperature", .num 0)], by decide⟩) (by decide) rfl _

theorem parseOperations_isSome_iff {xs : List JVal} :
    (parseOperations xs).isSome ↔
      ∀ x ∈ xs, ∃ opMap mode, x = .obj opMap ∧ opMap.lookup "mode" = some (.str mode) := by
  induction xs with
  | nil => simp [parseOperations]
  | cons x rest ih =>
    rw [List.forall_mem_cons, ← ih]
    cases x with
    | obj opMap =>
      have h : (∃ opMap' mode, JVal.obj opMap = .obj opMap' ∧
          opMap'.lookup "mode" = some (.str mode)) ↔ (parseOperation opMap).isSome := by
        rw [parseOperation_isSome_iff]
        simp
      rw [h]
      cases hp : parseOperation opMap <;> simp [parseOperations, hp]
    | _ => simp [parseOperations]

/-- A non-empty override whose `operations` entry is an array runs as a program when every
element is an object with a string `mode`.  Otherwise it goes through the legacy merge, which
copies the `operations` entry into the body with every other key. -/
theorem applyParamOverride_operations {m : GoMap} (hm : m.entries ≠ []) {opsSlice : List JVal}
    (hops : m.entries.lookup "operations" = some (.arr opsSlice)) (doc : JVal) :
    ((∀ x ∈ opsSlice, ∃ opMap mode, x = .obj opMap ∧ opMap.lookup "mode" = some (.str mode)) →
      ∃ operations, parseOperations opsSlice = some operations ∧
        applyParamOverride doc m = applyOperations doc operations) ∧
    (¬ (∀ x ∈ opsSlice, ∃ opMap mode, x = .obj opMap ∧ opMap.lookup "mode" = some (.str mode)) →
      applyParamOverride doc m = applyOperationsLegacy doc m) := by
  have htry : tryParseOperations m = parseOperations opsSlice := by rw [tryParseOperations, hops]
  refine ⟨fun h => ?_, fun h => applyParamOverride_of_legacy hm ?_ doc⟩
  · obtain ⟨operations, hp⟩ := Option.isSome_iff_exists.1 (parseOperations_isSome_iff.2 h)
    exact ⟨operations, hp, by rw [applyParamOverride, if_neg (by simpa using hm), htry, hp]⟩
  · rw [htry, ← Option.not_isSome_iff_eq_none]
    exact fun h' => h (parseOperations_isSome_iff.1 h')

/-- An override holding one well-formed `set` operation runs it. -/
theorem applyParamOverride_operations_set :
    [("operations", JVal.arr [.obj [("mode", .str "set"), ("path", .str "a")]])] ≠ [] ∧
      [("operations", JVal.arr [.obj [("mode", .str "set"), ("path", .str "a")]])].lookup
        "operations" = some (.arr [.obj [("mode", .str "set"), ("path", .str "a")]]) ∧
      ((∀ x ∈ [JVal.obj [("mode", .str "set"), ("path", .str "a")]],
          ∃ opMap mode, x = .obj opMap ∧ opMap.lookup "mode" = some (.str mode)) →
        ∃ operations, parseOperations [.obj [("mode", .str "set"), ("path", .str "a")]] =
            some operations ∧
          applyParamOverride (.obj [])
            ⟨[("operations", .arr [.obj [("mode", .str "set"), ("path", .str "a")]])], by decide⟩ =
            applyOperations (.obj []) operations) :=
  ⟨by decide, rfl, (applyParamOverride_operations
    (m := ⟨[("operations", .arr [.obj [("mode", .str "set"), ("path", .str "a")]])], by decide⟩)
    (by decide) rfl _).1⟩

/-- An `operations` array whose element is not an object is not a program: the legacy merge
copies the array into the body. -/
theorem applyParamOverride_malformed_operations :
    applyParamOverride (.obj [("model", .str "m")]) ⟨[("operations", .arr [.num 1])], by decide⟩ =
      .ok (.obj [("model", .str "m"), ("operations", .arr [.num 1])]) := by
  decide

theorem applyOperationsLegacy_perm {m₁ m₂ : GoMap} (h : m₁.entries.Perm m₂.entries) (doc : JVal) :
    applyOperationsLegacy doc m₁ = applyOperationsLegacy doc m₂ := by
  cases doc with
  | obj kvs =>
    obtain ⟨r₁, hgo₁, -, hs₁, hl₁⟩ := legacyMap_goValue kvs m₁
    obtain ⟨r₂, hgo₂, -, hs₂, hl₂⟩ := legacyMap_goValue kvs m₂
    have hgo : (JVal.obj (legacyMap kvs m₁)).goValue = (JVal.obj (legacyMap kvs m₂)).goValue := by
      rw [hgo₁, hgo₂, eq_of_lookup_eq_of_sorted hs₁ hs₂ fun k => by
        rw [hl₁, hl₂, lookup_of_perm h m₁.nodup]]
    simp only [applyOperationsLegacy, JVal.marshalError_eq_of_goValue hgo, hgo]
  | null =>
    have he : m₁.entries.isEmpty = m₂.entries.isEmpty := by
      rw [Bool.eq_iff_iff, List.isEmpty_iff, List.isEmpty_iff, ← List.length_eq_zero,
        ← List.length_eq_zero, h.length_eq]
    simp only [applyOperationsLegacy, he]
  | _ => rfl

/-! ## The legacy merge as a program of `set`s -/

/-- sjson's set of one member of an object is Go's `result[k] = v`. -/
theorem setPath_obj_single (w : JVal) (kvs : List (String × JVal)) (k : String) :
    setPath w (.obj kvs) [k] = .ok (.obj (mapSet k w kvs)) := by
  rw [mapSet_eq]
  by_cases hm : k ∈ kvs.map Prod.fst
  · obtain ⟨c, hc⟩ := exists_lookup_of_mem hm
    rw [if_pos hm, setPath_cons_of_child (show child (.obj kvs) k = some c from hc)]
    rfl
  · rw [if_neg hm]
    simp [setPath, child, lookup_eq_none_of_not_mem hm, addChild, build]

/-- The operation that writes `v` at the key `k` with `set`, with no condition. -/
def setOperation (kv : String × JVal) : ParamOperation :=
  ⟨kv.1, "set", kv.2, false, "", "", [], "OR"⟩

/-- A key a `set` can name as one member: not empty, and without a `.`. -/
def MemberKey (k : String) : Prop := k ≠ "" ∧ '.' ∉ k.toList

instance : DecidablePred MemberKey := fun _ => inferInstanceAs (Decidable (_ ∧ _))

theorem applyOperation_setOperation {k : String} (hk : MemberKey k) (v : JVal)
    (kvs : List (String × JVal)) :
    applyOperation (.obj kvs) (setOperation (k, v)) = .ok (.obj (mapSet k v.goValue kvs)) := by
  have hneg : negIndexes k = [] := findNegIndexes_idle_of_not_mem hk.2
  have hcomp : pathComponents k = [k] := by
    rw [pathComponents, splitOnDot_of_not_mem hk.2]
    rfl
  simp only [applyOperation, setOperation, checkConditions, if_true,
    processNegativeIndex_of_no_matches hneg]
  simp [runOperation, sjsonSet, hk.1, hcomp, setPath_obj_single, Except.mapError]

theorem applyOperations_setOperations :
    ∀ {es : List (String × JVal)}, (∀ k ∈ es.map Prod.fst, MemberKey k) →
      ∀ kvs : List (String × JVal), applyOperations (.obj kvs) (es.map setOperation) =
        .ok (.obj ((es.map goMember).foldl (fun acc kv => mapSet kv.1 kv.2 acc) kvs))
  | [], _, _ => rfl
  | (k, v) :: es, hk, kvs => by
    rw [List.map_cons, applyOperations, applyOperation_setOperation (hk k (List.mem_cons_self _ _))]
    exact applyOperations_setOperations (fun k' h' => hk k' (List.mem_cons_of_mem _ h')) _

/-- The legacy merge of an override into a body in which no key repeats is the program that sets
each entry at its key, up to Go's encoding: the map the legacy path writes is the body after the
`set`s, decoded and encoded again. -/
theorem applyOperationsLegacy_eq_sets {kvs : List (String × JVal)} (hkvs : (kvs.map Prod.fst).Nodup)
    (m : GoMap) (hkeys : ∀ k ∈ m.entries.map Prod.fst, MemberKey k)
    (hin : (JVal.obj kvs).inRange = true) (hmr : ∀ kv ∈ m.entries, kv.2.inRange = true) :
    applyOperationsLegacy (.obj kvs) m =
      (applyOperations (.obj kvs) (m.entries.map setOperation)).map JVal.goValue := by
  rw [applyOperations_setOperations hkeys, applyOperationsLegacy_of_inRange hin hmr, legacyMap]
  obtain ⟨XL, hXL⟩ : ∃ X, m.entries.foldl (fun acc kv => mapSet kv.1 kv.2 acc)
      (keepLast (JVal.goMembers kvs)) = X := ⟨_, rfl⟩
  obtain ⟨XS, hXS⟩ : ∃ X, (m.entries.map goMember).foldl (fun acc kv => mapSet kv.1 kv.2 acc)
      kvs = X := ⟨_, rfl⟩
  have hL : ((XL.map goMember).map Prod.fst).Nodup := by
    rw [keys_map_goMember, ← hXL]
    exact nodup_keys_foldl_mapSet (nodup_keys_keepLast _)
  have hS : ((XS.map goMember).map Prod.fst).Nodup := by
    rw [keys_map_goMember, ← hXS]
    exact nodup_keys_foldl_mapSet hkvs
  have hrev : ∀ k, kvs.reverse.lookup k = kvs.lookup k := fun k => by
    rw [← lookup_keepLast, keepLast_of_nodup hkvs]
  simp only [Except.map, hXL, hXS, JVal.goValue_obj, keepLast_of_nodup hL, keepLast_of_nodup hS]
  refine congrArg (fun l => Except.ok (JVal.obj l))
    (sortByKey_eq_of_perm (perm_of_lookup_eq hL hS fun k => ?_) hL)
  rw [lookup_map_goMember, lookup_map_goMember, ← hXL, ← hXS, lookup_foldl_mapSet m.nodup,
    lookup_foldl_mapSet (by simpa using m.nodup), lookup_keepLast, JVal.goMembers_eq_map,
    ← List.map_reverse, lookup_map_goMember, lookup_map_goMember, hrev]
  cases m.entries.lookup k <;> simp [Function.comp_def, JVal.goValue_goValue]

/-- The result of `ApplyParamOverride` does not depend on the order of the override's entries,
which Go's map leaves unspecified. -/
theorem applyParamOverride_perm {m₁ m₂ : GoMap} (h : m₁.entries.Perm m₂.entries) (doc : JVal) :
    applyParamOverride doc m₁ = applyParamOverride doc m₂ := by
  have hparse : tryParseOperations m₁ = tryParseOperations m₂ := by
    unfold tryParseOperations
    rw [lookup_of_perm h m₁.nodup]
  unfold applyParamOverride
  rw [h.length_eq, hparse, applyOperationsLegacy_perm h]

/-- Two orders of the same two entries give the same body. -/
theorem applyParamOverride_perm_swap :
    [("a", JVal.num 1), ("b", .null)].Perm [("b", .null), ("a", .num 1)] ∧
      applyParamOverride (.obj []) ⟨[("a", .num 1), ("b", .null)], by decide⟩ =
        applyParamOverride (.obj []) ⟨[("b", .null), ("a", .num 1)], by decide⟩ :=
  ⟨by decide, applyParamOverride_perm (by decide) _⟩

end NewApi
