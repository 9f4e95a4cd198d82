import NewApi.Json.Value

/-!
# Reading and writing at a path: `gjson.Get`, `sjson.Set`, `sjson.Delete`

The engine addresses a value in the request body by a dot-separated path such as
`messages.0.content`.  The operations write at plain paths: the text between two dots is an
object key or an array index, with none of gjson's query syntax (`#`, `*`, `?`, `@`, `|`, `\`),
and that is the language modelled here; conditions and negative indices read with the gjson
syntax of `Json/Gjson.lean`.  Each library walks the path one component at a time:

* `gjson.Get` on a plain path (`get`): in an object the first member with the key; in an array
  the element at the index, which must be a non-empty run of digits (`parseUint`) below the
  length; nothing in a scalar.
* `sjson.Set` (`setPath`): where the path exists the value there is replaced; where it leaves
  the document the rest is built (`addChild`, `build`): a member appended to an object, an
  element written past the end of an array after `null`s up to its index (or appended, for
  `-1`), and a scalar first replaced by an empty array or object.  An empty path is an error.
* `sjson.Delete` (`deletePath`): removes what the path names, where `-1` names the last element
  of a non-empty array; a path that names nothing leaves the document as it is.

Paths are split and numbers read on character lists, so that every definition here reduces.
The lemmas say what one step of a path does to the child it selects and to the others, and
`get_setPath` that gjson reads back what sjson writes on a path of plain components, and
`get_setPath_of_partAt` that a write keeps the value at every path that parts from its own.
-/

namespace NewApi

/-- Equality of results, so that the outcome of a write can be decided. -/
instance instDecidableEqExceptResult {ε α : Type} [DecidableEq ε] [DecidableEq α] :
    DecidableEq (Except ε α)
  | .error e, .error e' =>
    if h : e = e' then isTrue (h ▸ rfl) else isFalse fun h' => h (by injection h')
  | .ok a, .ok b => if h : a = b then isTrue (h ▸ rfl) else isFalse fun h' => h (by injection h')
  | .error _, .ok _ => isFalse fun h => by cases h
  | .ok _, .error _ => isFalse fun h => by cases h

/-! ## Paths -/

/-- The components of a path: the texts between its dots. -/
def splitOnDot : List Char → List String
  | [] => [""]
  | c :: cs =>
    if c = '.' then "" :: splitOnDot cs
    else match splitOnDot cs with
      | s :: rest => ⟨c :: s.toList⟩ :: rest
      | [] => [⟨[c]⟩]

/-- The components gjson and sjson read from a path. -/
def pathComponents (path : String) : List String := splitOnDot path.toList

/-- The value of a run of decimal digits. -/
def digitsValue (ds : List Char) : Nat :=
  ds.foldl (fun n d => 10 * n + (d.toNat - '0'.toNat)) 0

/-- gjson's `parseUint`: an index is a non-empty run of digits. -/
def parseUint (k : String) : Option Nat :=
  if k.toList ≠ [] ∧ k.toList.all Char.isDigit then some (digitsValue k.toList) else none

/-- sjson's `atoui`: a component made of digits only, the empty one included (as `0`). -/
def atoui (k : String) : Option Nat :=
  if k.toList.all Char.isDigit then some (digitsValue k.toList) else none

/-! ## One step of a path -/

/-- The members with the value of the first one keyed `k` changed by `f`. -/
def updateFirst {α : Type} (k : String) (f : α → α) : List (String × α) → List (String × α)
  | [] => []
  | (k', v) :: kvs => if k' = k then (k', f v) :: kvs else (k', v) :: updateFirst k f kvs

/-- The members without the first one keyed `k`. -/
def eraseFirst {α : Type} (k : String) : List (String × α) → List (String × α)
  | [] => []
  | (k', v) :: kvs => if k' = k then kvs else (k', v) :: eraseFirst k kvs

/-- The child a component selects. -/
def child : JVal → String → Option JVal
  | .obj kvs, k => kvs.lookup k
  | .arr xs, k => (parseUint k).bind fun i => xs[i]?
  | _, _ => none

/-- The node with the child a component selects changed by `f`. -/
def updateChild (f : JVal → JVal) : JVal → String → JVal
  | .obj kvs, k => .obj (updateFirst k f kvs)
  | .arr xs, k => match parseUint k with
    | some i => .arr (xs.modify f i)
    | none => .arr xs
  | v, _ => v

/-- The node without the child a component selects, if there is one. -/
def removeChild : JVal → String → Option JVal
  | .obj kvs, k => if k ∈ kvs.map Prod.fst then some (.obj (eraseFirst k kvs)) else none
  | .arr xs, k => match parseUint k with
    | some i => if i < xs.length then some (.arr (xs.eraseIdx i)) else none
    | none => none
  | _, _ => none

/-! ## `gjson.Get` -/

/-- `gjson.Get` at a path's components. -/
def get : JVal → List String → Option JVal
  | v, [] => some v
  | v, k :: ks => (child v k).bind fun c => get c ks

/-- `Result.Exists()` of `gjson.Get(json, path)`. -/
def pathExists (doc : JVal) (path : String) : Bool := (get doc (pathComponents path)).isSome

/-! ## `sjson.Set` -/

/-- `appendBuild`: the value written for the components after the point where the path leaves
the document, each container chosen by the component it holds: an array for digits (after that
many `null`s) and for `-1`, an object otherwise. -/
def build : List String → JVal → JVal
  | [], v => v
  | k :: ks, v => match atoui k with
    | some n => .arr (List.replicate n .null ++ [build ks v])
    | none => if k = "-1" then .arr [build ks v] else .obj [(k, build ks v)]

/-- Writing `w` under a component that selects nothing: appended as a member of an object;
written past the end of an array, after `null`s up to a numeric index, or right at the end for
`-1` and for the empty component (which `atoui` reads as `0`, sjson v1.2.5); a scalar is replaced
by an empty array (numeric component) or object first. -/
def addChild (d : JVal) (k : String) (w : JVal) : Except String JVal :=
  match d with
  | .obj kvs => .ok (.obj (kvs ++ [(k, w)]))
  | .arr xs => match atoui k with
    | some n => .ok (.arr (xs ++ List.replicate (n - xs.length) .null ++ [w]))
    | none =>
      if k = "-1" then .ok (.arr (xs ++ [w]))
      else .error ("cannot set array element for non-numeric key '" ++ k ++ "'")
  | _ => match atoui k with
    | some n => .ok (.arr (List.replicate n .null ++ [w]))
    | none => .ok (.obj [(k, w)])

/-- `appendRawPaths` of a write of `v`. -/
def setPath (v : JVal) : JVal → List String → Except String JVal
  | _, [] => .ok v
  | d, k :: ks => match child d k with
    | some c => (setPath v c ks).map fun c' => updateChild (fun _ => c') d k
    | none => addChild d k (build ks v)

/-- `sjson.Set(json, path, value)`, `v` being the JSON value it writes. -/
def sjsonSet (doc : JVal) (path : String) (v : JVal) : Except String JVal :=
  if path = "" then .error "path cannot be empty" else setPath v doc (pathComponents path)

/-! ## `sjson.Delete` -/

/-- The component a deletion looks up: `-1` in a non-empty array names its last element. -/
def deleteKey : JVal → String → String
  | .arr xs, k => if k = "-1" ∧ xs ≠ [] then toString (xs.length - 1) else k
  | _, k => k

/-- `appendRawPaths` of a deletion: the node without what the path names, or nothing when the
path names nothing (`errNoChange`). -/
def deletePath : JVal → List String → Option JVal
  | _, [] => none
  | d, [k] => removeChild d (deleteKey d k)
  | d, k :: k' :: ks =>
    (child d (deleteKey d k)).bind fun c =>
      (deletePath c (k' :: ks)).map fun c' => updateChild (fun _ => c') d (deleteKey d k)

/-- `sjson.Delete(json, path)`: a path that names nothing leaves the document unchanged. -/
def sjsonDelete (doc : JVal) (path : String) : Except String JVal :=
  if path = "" then .error "path cannot be empty"
  else .ok ((deletePath doc (pathComponents path)).getD doc)

/-! ## Members of an object -/

section Members

variable {α : Type} {k x : String} {f g : α → α} {v : α} {kvs l : List (String × α)}

@[simp] theorem lookup_cons_pair (k k' : String) (v : α) (kvs : List (String × α)) :
    ((k', v) :: kvs).lookup k = if k' = k then some v else kvs.lookup k := by
  by_cases h : k' = k
  · subst h
    simp
  · have hb : (k == k') = false := by simpa [beq_iff_eq] using Ne.symm h
    simp [List.lookup_cons, hb, h]

theorem lookup_updateFirst_self : (updateFirst k f kvs).lookup k = (kvs.lookup k).map f := by
  induction kvs with
  | nil => rfl
  | cons kv kvs ih =>
    obtain ⟨k', w⟩ := kv
    by_cases h : k' = k <;> simp [updateFirst, h, ih]

theorem lookup_updateFirst_of_ne (h : x ≠ k) : (updateFirst k f kvs).lookup x = kvs.lookup x := by
  induction kvs with
  | nil => rfl
  | cons kv kvs ih =>
    obtain ⟨k', w⟩ := kv
    by_cases hk : k' = k
    · subst hk
      simp [updateFirst, Ne.symm h]
    · simp [updateFirst, hk, ih]

theorem updateFirst_updateFirst :
    updateFirst k g (updateFirst k f kvs) = updateFirst k (g ∘ f) kvs := by
  induction kvs with
  | nil => rfl
  | cons kv kvs ih =>
    obtain ⟨k', w⟩ := kv
    by_cases h : k' = k <;> simp [updateFirst, h, ih]

theorem updateFirst_comm (h : x ≠ k) :
    updateFirst x g (updateFirst k f kvs) = updateFirst k f (updateFirst x g kvs) := by
  induction kvs with
  | nil => rfl
  | cons kv kvs ih =>
    obtain ⟨k', w⟩ := kv
    by_cases hk : k' = k
    · subst hk
      simp [updateFirst, Ne.symm h]
    · by_cases hx : k' = x
      · subst hx
        simp [updateFirst, h]
      · simp [updateFirst, hk, hx, ih]

theorem updateFirst_congr (h : kvs.lookup k = some v) (hfg : f v = g v) :
    updateFirst k f kvs = updateFirst k g kvs := by
  induction kvs with
  | nil => simp at h
  | cons kv kvs ih =>
    obtain ⟨k', w⟩ := kv
    by_cases hk : k' = k
    · simp only [lookup_cons_pair, hk, if_true, Option.some.injEq] at h
      simp [updateFirst, hk, h, hfg]
    · simp only [lookup_cons_pair, hk, if_false] at h
      simp [updateFirst, hk, ih h]

theorem updateFirst_of_lookup (h : kvs.lookup k = some v) :
    updateFirst k (fun _ => v) kvs = kvs := by
  induction kvs with
  | nil => rfl
  | cons kv kvs ih =>
    obtain ⟨k', w⟩ := kv
    by_cases hk : k' = k
    · simp only [lookup_cons_pair, hk, if_true, Option.some.injEq] at h
      simp [updateFirst, hk, h]
    · simp only [lookup_cons_pair, hk, if_false] at h
      simp [updateFirst, hk, ih h]

@[simp] theorem keys_updateFirst : (updateFirst k f kvs).map Prod.fst = kvs.map Prod.fst := by
  induction kvs with
  | nil => rfl
  | cons kv kvs ih =>
    obtain ⟨k', w⟩ := kv
    by_cases hk : k' = k <;> simp [updateFirst, hk, ih]

/-- A key of `(k', w) :: kvs` other than `k'` is a key of `kvs`. -/
theorem mem_keys_of_cons {k' : String} {w : α} (h : k ∈ ((k', w) :: kvs).map Prod.fst)
    (hk : k' ≠ k) : k ∈ kvs.map Prod.fst :=
  (List.mem_cons.1 h).resolve_left (Ne.symm hk)

/-- A key missing from `(k', w) :: kvs` is not `k'` and is missing from `kvs`. -/
theorem not_mem_keys_cons {k' : String} {w : α} (h : k ∉ ((k', w) :: kvs).map Prod.fst) :
    k' ≠ k ∧ k ∉ kvs.map Prod.fst :=
  ⟨fun e => h (List.mem_cons.2 (.inl e.symm)), fun h' => h (List.mem_cons_of_mem _ h')⟩

theorem updateFirst_append (h : k ∈ kvs.map Prod.fst) :
    updateFirst k f (kvs ++ l) = updateFirst k f kvs ++ l := by
  induction kvs with
  | nil => simp at h
  | cons kv kvs ih =>
    obtain ⟨k', w⟩ := kv
    by_cases hk : k' = k
    · simp [updateFirst, hk]
    · simp [updateFirst, hk, ih (mem_keys_of_cons h hk)]

theorem eraseFirst_append_of_mem (h : k ∈ kvs.map Prod.fst) :
    eraseFirst k (kvs ++ l) = eraseFirst k kvs ++ l := by
  induction kvs with
  | nil => simp at h
  | cons kv kvs ih =>
    obtain ⟨k', w⟩ := kv
    by_cases hk : k' = k
    · simp [eraseFirst, hk]
    · simp [eraseFirst, hk, ih (mem_keys_of_cons h hk)]

theorem eraseFirst_append_of_not_mem (h : k ∉ kvs.map Prod.fst) :
    eraseFirst k (kvs ++ l) = kvs ++ eraseFirst k l := by
  induction kvs with
  | nil => rfl
  | cons kv kvs ih =>
    obtain ⟨k', w⟩ := kv
    obtain ⟨hk, h⟩ := not_mem_keys_cons h
    simp [eraseFirst, hk, ih h]

theorem eraseFirst_of_not_mem (h : k ∉ kvs.map Prod.fst) : eraseFirst k kvs = kvs := by
  simpa [eraseFirst] using eraseFirst_append_of_not_mem (l := []) h

theorem lookup_eraseFirst_of_ne (h : x ≠ k) : (eraseFirst k kvs).lookup x = kvs.lookup x := by
  induction kvs with
  | nil => rfl
  | cons kv kvs ih =>
    obtain ⟨k', w⟩ := kv
    by_cases hk : k' = k
    · subst hk
      simp [eraseFirst, Ne.symm h]
    · simp [eraseFirst, hk, ih]

theorem lookup_eq_none_of_not_mem (h : k ∉ kvs.map Prod.fst) : kvs.lookup k = none := by
  induction kvs with
  | nil => rfl
  | cons kv kvs ih =>
    obtain ⟨k', w⟩ := kv
    obtain ⟨hk, h⟩ := not_mem_keys_cons h
    simp [hk, ih h]

theorem keys_eraseFirst_of_nodup (h : (kvs.map Prod.fst).Nodup) :
    k ∉ (eraseFirst k kvs).map Prod.fst := by
  induction kvs with
  | nil => exact List.not_mem_nil _
  | cons kv kvs ih =>
    obtain ⟨k', w⟩ := kv
    rw [List.map_cons, List.nodup_cons] at h
    by_cases hk : k' = k
    · subst hk
      simpa only [eraseFirst, if_true] using h.1
    · simp only [eraseFirst, hk, if_false, List.map_cons, List.mem_cons, not_or]
      exact ⟨Ne.symm hk, ih h.2⟩

theorem eraseFirst_sublist (kvs : List (String × α)) : (eraseFirst k kvs).Sublist kvs := by
  induction kvs with
  | nil => exact List.Sublist.slnil
  | cons kv kvs ih =>
    obtain ⟨k', w⟩ := kv
    by_cases hk : k' = k
    · simp [eraseFirst, hk]
    · simpa [eraseFirst, hk] using ih.cons₂ (k', w)

theorem exists_lookup_of_mem (h : k ∈ kvs.map Prod.fst) : ∃ v, kvs.lookup k = some v := by
  induction kvs with
  | nil => simp at h
  | cons kv kvs ih =>
    obtain ⟨k', w⟩ := kv
    by_cases hk : k' = k
    · exact ⟨w, by simp [hk]⟩
    · simpa [hk] using ih (mem_keys_of_cons h hk)

theorem mem_keys_of_lookup (h : kvs.lookup k = some v) : k ∈ kvs.map Prod.fst := by
  obtain ⟨l₁, l₂, rfl, -⟩ := List.lookup_eq_some_iff.1 h
  exact List.mem_map_of_mem Prod.fst (List.mem_append_right _ (List.mem_cons_self _ _))

theorem eraseFirst_updateFirst (h : x ≠ k) :
    eraseFirst k (updateFirst x f kvs) = updateFirst x f (eraseFirst k kvs) := by
  induction kvs with
  | nil => rfl
  | cons kv kvs ih =>
    obtain ⟨k', w⟩ := kv
    by_cases hk : k' = k
    · subst hk
      simp [eraseFirst, updateFirst, Ne.symm h]
    · by_cases hx : k' = x
      · subst hx
        simp [eraseFirst, updateFirst, hk]
      · simp [eraseFirst, updateFirst, hk, hx, ih]

end Members

/-! ## One step of a path -/

/-- Two components select the same child of a node: the same key of an object, the same index
of an array. -/
def sameChild : JVal → String → String → Prop
  | .arr _, x, y => parseUint x = parseUint y
  | _, x, y => x = y

section Step

variable {d c : JVal} {x y : String} {f g : JVal → JVal}

theorem sameChild_refl : sameChild d x x := by
  cases d <;> simp [sameChild]

theorem sameChild_comm (hs : sameChild d x y) : sameChild d y x := by
  cases d <;> exact hs.symm

@[simp] theorem sameChild_updateChild {z : String} :
    sameChild (updateChild f d z) x y ↔ sameChild d x y := by
  cases d with
  | arr xs => simp only [updateChild]; split <;> rfl
  | _ => rfl

theorem child_eq_of_sameChild (hs : sameChild d x y) : child d x = child d y := by
  cases d with
  | arr xs => simp only [sameChild] at hs; simp [child, hs]
  | _ => simp only [sameChild] at hs; rw [hs]

theorem updateChild_eq_of_sameChild (hs : sameChild d x y) :
    updateChild f d x = updateChild f d y := by
  cases d with
  | arr xs => simp only [sameChild] at hs; simp [updateChild, hs]
  | _ => simp only [sameChild] at hs; rw [hs]

theorem child_updateChild_self (h : child d x = some c) :
    child (updateChild f d x) x = some (f c) := by
  cases d with
  | obj kvs =>
    simp only [child, updateChild] at h ⊢
    rw [lookup_updateFirst_self, h]
    rfl
  | arr xs =>
    cases hi : parseUint x <;> simp_all [child, updateChild]
  | _ => simp [child] at h

theorem child_updateChild_of_sameChild (h : child d x = some c) (hs : sameChild d x y) :
    child (updateChild f d y) x = some (f c) := by
  cases d with
  | obj kvs =>
    simp only [sameChild] at hs
    subst hs
    exact child_updateChild_self h
  | arr xs =>
    simp only [sameChild] at hs
    simp only [child] at h
    cases hi : parseUint x with
    | none => simp [hi] at h
    | some i =>
      simp only [hi, Option.some_bind] at h
      simp [child, updateChild, ← hs, hi, h]
  | _ => simp [child] at h

theorem child_updateChild_of_not_sameChild (hs : ¬sameChild d x y) :
    child (updateChild f d y) x = child d x := by
  cases d with
  | obj kvs => exact lookup_updateFirst_of_ne hs
  | arr xs =>
    cases hy : parseUint y with
    | none => simp [updateChild, hy]
    | some j =>
      cases hx : parseUint x with
      | none => simp [child, updateChild, hy, hx]
      | some i =>
        have hij : i ≠ j := fun e => hs (by simp [sameChild, hx, hy, e])
        simp [child, updateChild, hy, hx, List.getElem?_modify_ne _ _ hij.symm]
  | _ => rfl

theorem updateChild_updateChild_of_sameChild (hs : sameChild d x y) :
    updateChild g (updateChild f d y) x = updateChild (g ∘ f) d x := by
  cases d with
  | obj kvs =>
    simp only [sameChild] at hs
    subst hs
    simp [updateChild, updateFirst_updateFirst]
  | arr xs =>
    simp only [sameChild] at hs
    cases hi : parseUint x <;> simp [updateChild, ← hs, hi, List.modify_modify_eq]
  | _ => rfl

theorem updateChild_comm (hs : ¬sameChild d x y) :
    updateChild f (updateChild g d y) x = updateChild g (updateChild f d x) y := by
  cases d with
  | obj kvs => simp [updateChild, updateFirst_comm hs]
  | arr xs =>
    cases hy : parseUint y <;> cases hx : parseUint x <;>
      simp_all [sameChild, updateChild, List.modify_modify_ne]
  | _ => rfl

theorem updateChild_congr (h : child d x = some c) (hfg : f c = g c) :
    updateChild f d x = updateChild g d x := by
  cases d with
  | obj kvs => simp [updateChild, updateFirst_congr h hfg]
  | arr xs =>
    cases hi : parseUint x with
    | none => simp [updateChild, hi]
    | some i =>
      simp only [child, hi, Option.some_bind] at h
      simp only [updateChild, hi, JVal.arr.injEq]
      apply List.ext_getElem?
      intro j
      by_cases hj : i = j
      · subst hj; simp [List.getElem?_modify_eq, h, hfg]
      · simp [List.getElem?_modify_ne _ _ hj]
  | _ => rfl

theorem updateChild_child (h : child d x = some c) : updateChild (fun _ => c) d x = d := by
  cases d with
  | obj kvs => exact congrArg JVal.obj (updateFirst_of_lookup h)
  | arr xs =>
    rw [updateChild_congr (f := fun _ => c) (g := id) h rfl]
    simp only [updateChild, List.modify_id]
    split <;> rfl
  | _ => rfl

end Step

/-! ## Paths -/

theorem get_append (d : JVal) (p q : List String) :
    get d (p ++ q) = (get d p).bind fun c => get c q := by
  induction p generalizing d with
  | nil => rfl
  | cons k p ih => cases h : child d k <;> simp [get, h, ih]

theorem setPath_cons_of_child {w : JVal} {d c : JVal} {x : String} {p : List String}
    (h : child d x = some c) :
    setPath w d (x :: p) = (setPath w c p).map fun c' => updateChild (fun _ => c') d x := by
  simp [setPath, h]

theorem deleteKey_of_child {d c : JVal} {x : String} (h : child d x = some c) : deleteKey d x = x := by
  cases d with
  | arr xs =>
    have hx : x ≠ "-1" := by rintro rfl; simp [child, parseUint] at h
    simp [deleteKey, hx]
  | _ => rfl

theorem deletePath_cons_of_child {d c : JVal} {x : String} {p : List String}
    (h : child d x = some c) (hp : p ≠ []) :
    deletePath d (x :: p) = (deletePath c p).map fun c' => updateChild (fun _ => c') d x := by
  obtain ⟨k, p, rfl⟩ := List.exists_cons_of_ne_nil hp
  simp [deletePath, deleteKey_of_child h, h]

/-! ## A member of an object -/

theorem setPath_obj_new {w : JVal} {ns : List (String × JVal)} {k : String}
    (hk : k ∉ ns.map Prod.fst) : setPath w (.obj ns) [k] = .ok (.obj (ns ++ [(k, w)])) := by
  simp [setPath, child, lookup_eq_none_of_not_mem hk, addChild, build]

theorem deletePath_obj_member {ns : List (String × JVal)} {k : String}
    (hk : k ∈ ns.map Prod.fst) : deletePath (.obj ns) [k] = some (.obj (eraseFirst k ns)) := by
  simp [deletePath, deleteKey, removeChild, hk]

/-- Deleting a member of an object that a path names leaves the object without it. -/
theorem deletePath_member_get {ms : List (String × JVal)} {k : String}
    (hk : k ∈ ms.map Prod.fst) : ∀ {d : JVal} {p : List String}, get d p = some (.obj ms) →
      ∃ d', deletePath d (p ++ [k]) = some d' ∧ get d' p = some (.obj (eraseFirst k ms))
  | d, [], h => by
    simp only [get, Option.some.injEq] at h
    subst h
    exact ⟨_, deletePath_obj_member hk, rfl⟩
  | d, x :: p, h => by
    obtain ⟨c, hc, hg⟩ : ∃ c, child d x = some c ∧ get c p = some (.obj ms) := by
      simpa [get, Option.bind_eq_some] using h
    obtain ⟨c', hdc, hgc⟩ := deletePath_member_get hk hg
    refine ⟨_, by rw [List.cons_append, deletePath_cons_of_child hc (by simp), hdc]; rfl, ?_⟩
    simp [get, child_updateChild_self hc, hgc]

/-! ## Reading back what sjson wrote

A path whose components are neither empty nor `-1` reads, after a successful `sjson.Set`, the
value written: the two libraries agree on where it is.  An empty component can be written
(`atoui` reads it as `0`) but is no index for gjson, and `-1` writes at the end of an array
where gjson reads no element. -/

/-- A component that sjson writes through and gjson reads back: neither empty nor `-1`. -/
def PlainComponent (k : String) : Prop := k ≠ "" ∧ k ≠ "-1"

instance (k : String) : Decidable (PlainComponent k) := inferInstanceAs (Decidable (_ ∧ _))

theorem parseUint_of_atoui {k : String} {n : Nat} (h : atoui k = some n) (hk : k ≠ "") :
    parseUint k = some n := by
  have hk' : k.toList ≠ [] := fun e => hk (String.ext e)
  unfold atoui at h
  split at h
  · simp_all [parseUint]
  · cases h

theorem getElem?_padded {α : Type} (xs : List α) (a w : α) {n : Nat} (hn : xs.length ≤ n) :
    (xs ++ List.replicate (n - xs.length) a ++ [w])[n]? = some w := by
  have hl : (xs ++ List.replicate (n - xs.length) a).length = n := by simp; omega
  simpa only [hl] using List.getElem?_concat_length (xs ++ List.replicate (n - xs.length) a) w

/-- An element written past the end of an array, after `null`s up to its index, is there. -/
theorem child_padded {xs : List JVal} {w : JVal} {k : String} {n : Nat}
    (hk : parseUint k = some n) (hn : xs.length ≤ n) :
    child (.arr (xs ++ List.replicate (n - xs.length) .null ++ [w])) k = some w := by
  simp only [child, hk, Option.some_bind, getElem?_padded xs _ w hn]

theorem child_replicate {w : JVal} {k : String} {n : Nat} (hk : parseUint k = some n) :
    child (.arr (List.replicate n .null ++ [w])) k = some w := by
  simpa using @child_padded [] w k n hk (Nat.zero_le n)

theorem get_build {w : JVal} :
    ∀ {ks : List String}, (∀ k ∈ ks, PlainComponent k) → get (build ks w) ks = some w
  | [], _ => rfl
  | k :: ks, h => by
    have ih := get_build (w := w) fun k' hk' => h k' (List.mem_cons_of_mem _ hk')
    have hk := h k (List.mem_cons_self _ _)
    cases ha : atoui k with
    | some n => simp [build, ha, get, child_replicate (parseUint_of_atoui ha hk.1), ih]
    | none => simp [build, ha, hk.2, get, child, ih]

theorem child_addChild {d d' w : JVal} {k : String} (hc : child d k = none) (hk : PlainComponent k)
    (h : addChild d k w = .ok d') : child d' k = some w := by
  cases d with
  | obj kvs =>
    simp only [addChild, Except.ok.injEq] at h
    subst h
    simp only [child] at hc ⊢
    rw [List.lookup_append, hc]
    simp
  | arr xs =>
    simp only [addChild] at h
    cases ha : atoui k with
    | none => simp [ha, hk.2] at h
    | some n =>
      simp only [ha, Except.ok.injEq] at h
      subst h
      have hn : xs.length ≤ n := by simpa [child, parseUint_of_atoui ha hk.1] using hc
      exact child_padded (parseUint_of_atoui ha hk.1) (by omega)
  | _ =>
    cases ha : atoui k <;> simp only [addChild, ha, Except.ok.injEq] at h <;> subst h
    · exact List.lookup_cons_self
    · exact child_replicate (parseUint_of_atoui ha hk.1)

/-- gjson reads at a path of plain components the value sjson has just written there. -/
theorem get_setPath {w : JVal} : ∀ {d d' : JVal} {p : List String},
    (∀ k ∈ p, PlainComponent k) → setPath w d p = .ok d' → get d' p = some w
  | d, d', [], _, h => by
    simp only [setPath, Except.ok.injEq] at h
    simp [get, h]
  | d, d', k :: ks, hp, h => by
    have hks : ∀ k' ∈ ks, PlainComponent k' := fun k' hk' => hp k' (List.mem_cons_of_mem _ hk')
    cases hc : child d k with
    | some c =>
      rw [setPath_cons_of_child hc] at h
      cases hs : setPath w c ks with
      | error e => simp [hs, Except.map] at h
      | ok c' =>
        simp only [hs, Except.map, Except.ok.injEq] at h
        subst h
        simp [get, child_updateChild_self hc, get_setPath hks hs]
    | none =>
      simp only [setPath, hc] at h
      simp [get, child_addChild hc (hp k (List.mem_cons_self _ _)) h, get_build hks]

/-- sjson's set always succeeds on a path that names a value. -/
theorem setPath_ok_of_get {w : JVal} : ∀ {d c : JVal} {p : List String}, get d p = some c →
    ∃ d', setPath w d p = .ok d'
  | _, _, [], _ => ⟨w, rfl⟩
  | d, c, k :: ks, h => by
    obtain ⟨c₁, hc₁, hg⟩ : ∃ c₁, child d k = some c₁ ∧ get c₁ ks = some c := by
      simpa [get, Option.bind_eq_some] using h
    obtain ⟨d', hd'⟩ := setPath_ok_of_get (w := w) hg
    exact ⟨_, by rw [setPath_cons_of_child hc₁, hd']; rfl⟩

/-- Writing at a path the value already there gives back the document. -/
theorem setPath_of_get {w : JVal} : ∀ {d : JVal} {p : List String}, get d p = some w →
    setPath w d p = .ok d
  | d, [], h => by
    simp only [get, Option.some.injEq] at h
    subst h
    rfl
  | d, k :: ks, h => by
    obtain ⟨c, hc, hg⟩ : ∃ c, child d k = some c ∧ get c ks = some w := by
      simpa [get, Option.bind_eq_some] using h
    rw [setPath_cons_of_child hc, setPath_of_get hg]
    exact congrArg Except.ok (updateChild_child hc)

/-- A path without a `.` is one component. -/
theorem splitOnDot_of_not_mem : ∀ {cs : List Char}, '.' ∉ cs → splitOnDot cs = [⟨cs⟩]
  | [], _ => rfl
  | c :: cs, h => by
    have hc : c ≠ '.' := fun hc => h (hc ▸ List.mem_cons_self _ _)
    rw [splitOnDot, if_neg hc, splitOnDot_of_not_mem fun h' => h (List.mem_cons_of_mem _ h')]
    rfl

theorem path_ne_empty_of_plain {path : String}
    (hp : ∀ k ∈ pathComponents path, PlainComponent k) : path ≠ "" := by
  rintro rfl
  exact (hp "" (by decide)).1 rfl

theorem get_sjsonSet {doc doc' v : JVal} {path : String}
    (hp : ∀ k ∈ pathComponents path, PlainComponent k) (h : sjsonSet doc path v = .ok doc') :
    get doc' (pathComponents path) = some v := by
  unfold sjsonSet at h
  split at h
  · cases h
  · exact get_setPath hp h

/-! ## What a write leaves alone -/

/-- Writing under a component that selects nothing keeps every child that was there. -/
theorem child_addChild_of_child {d d' w c : JVal} {x y : String} (h : addChild d x w = .ok d')
    (hc : child d y = some c) : child d' y = some c := by
  cases d with
  | obj kvs =>
    simp only [addChild, Except.ok.injEq] at h
    subst h
    simp only [child] at hc ⊢
    rw [List.lookup_append, hc]
    rfl
  | arr xs =>
    obtain ⟨i, hi, hxi⟩ : ∃ i, parseUint y = some i ∧ xs[i]? = some c := by
      simpa [child, Option.bind_eq_some] using hc
    have hlt : i < xs.length := (List.getElem?_eq_some_iff.1 hxi).1
    simp only [addChild] at h
    split at h
    · cases h
      simp only [child, hi, Option.some_bind, List.append_assoc, List.getElem?_append_left hlt, hxi]
    · split at h
      · cases h
        simp only [child, hi, Option.some_bind, List.getElem?_append_left hlt, hxi]
      · cases h
  | _ => simp [child] at hc

/-- Two paths part at a node: they share the components before it, and there they select
children that are not the same. -/
def PartAt (d : JVal) (p q : List String) : Prop :=
  ∃ r x y p' q', p = r ++ x :: p' ∧ q = r ++ y :: q' ∧
    ∀ n, get d r = some n → ¬ sameChild n x y

theorem get_setPath_of_parting {w : JVal} : ∀ (r : List String) {d d' : JVal} {x y : String}
    {p' q' : List String} {v : JVal}, setPath w d (r ++ x :: p') = .ok d' →
    (∀ n, get d r = some n → ¬ sameChild n x y) → get d (r ++ y :: q') = some v →
    get d' (r ++ y :: q') = some v
  | [], d, d', x, y, p', q', v, h, hs, hv => by
    have hs' : ¬ sameChild d x y := hs d rfl
    obtain ⟨cy, hcy, hg⟩ : ∃ c, child d y = some c ∧ get c q' = some v := by
      simpa [get, Option.bind_eq_some] using hv
    cases hc : child d x with
    | some c =>
      rw [List.nil_append, setPath_cons_of_child hc] at h
      cases hs : setPath w c p' with
      | error e => simp [hs, Except.map] at h
      | ok c' =>
        simp only [hs, Except.map, Except.ok.injEq] at h
        subst h
        have := child_updateChild_of_not_sameChild (f := fun _ => c')
          (fun e => hs' (sameChild_comm e))
        simp [get, this, hcy, hg]
    | none =>
      simp only [List.nil_append, setPath, hc] at h
      simp [get, child_addChild_of_child h hcy, hg]
  | z :: r, d, d', x, y, p', q', v, h, hs, hv => by
    obtain ⟨c, hc, hg⟩ : ∃ c, child d z = some c ∧ get c (r ++ y :: q') = some v := by
      simpa [get, Option.bind_eq_some] using hv
    rw [List.cons_append, setPath_cons_of_child hc] at h
    cases hsc : setPath w c (r ++ x :: p') with
    | error e => simp [hsc, Except.map] at h
    | ok c' =>
      simp only [hsc, Except.map, Except.ok.injEq] at h
      subst h
      have ih := get_setPath_of_parting r hsc (fun n hn => hs n (by simp [get, hc, hn])) hg
      simp [get, child_updateChild_self hc, ih]

/-- sjson's set keeps the value at every path that parts from the one written. -/
theorem get_setPath_of_partAt {w d d' v : JVal} {p q : List String} (h : setPath w d p = .ok d')
    (hpq : PartAt d p q) (hv : get d q = some v) : get d' q = some v := by
  obtain ⟨r, x, y, p', q', rfl, rfl, hs⟩ := hpq
  exact get_setPath_of_parting r h hs hv

end NewApi
