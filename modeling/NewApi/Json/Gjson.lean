import NewApi.Json.Path

/-!
# gjson paths

`gjson.Get(json, path)` reads a path one component at a time against the node it has reached,
and splits the component off by the kind of that node.

* Against an object (`parseObjectPath`) a component runs to the first `.` that no `\` escapes;
  `\` is dropped and keeps the next character as it is, and an unescaped `*` or `?` makes the
  component a pattern that keys are matched against (`match.Match`).  The scan takes the first
  member whose key matches and under which the rest of the path finds something: a member whose
  key matches but whose value has nothing at the rest does not end it.
* Against an array (`parseArrayPath`) a component runs to the first `.`.  A run of digits picks
  an element, `#` alone is the number of elements, and `#.` followed by the rest of the path
  reads that rest in every element and collects what it finds into an array.

The reading is defined once for any tree that shows gjson objects, arrays and literals
(`Reader`): for values here (`gjsonGet`), and for the text of a body in `Json/Text.lean`.
`getIn_map` carries a lookup along any map between two such trees.

Paths that use the syntax left out here are read as finding nothing (`Modelled`): the pipe
`|`, modifiers and literals (`@`, `!`), queries (`#(`, `#[`), multipaths (`[`, `{`) and JSON
lines (`..`).  Key patterns are matched without `matchLimit`'s bound on the work a pattern may
take.
-/

namespace NewApi

/-! ## Components -/

/-- A component of a path as gjson splits it off: the text a key or an index is compared with,
whether it is a pattern, and the rest of the path after its `.`, if it has one. -/
structure Component where
  part : List Char
  wild : Bool
  rest : Option (List Char)

/-- `parseObjectPath`: up to the first `.` that no `\` escapes. -/
def objectComponent : List Char → Component
  | [] => ⟨[], false, none⟩
  | '.' :: r => ⟨[], false, some r⟩
  | ['\\'] => ⟨[], false, none⟩
  | '\\' :: c :: r => let k := objectComponent r; ⟨c :: k.part, k.wild, k.rest⟩
  | c :: r => let k := objectComponent r; ⟨c :: k.part, k.wild || c = '*' || c = '?', k.rest⟩

/-- `parseArrayPath`: up to the first `.`. -/
def arrayComponent : List Char → Component
  | [] => ⟨[], false, none⟩
  | '.' :: r => ⟨[], false, some r⟩
  | c :: r => let k := arrayComponent r; ⟨c :: k.part, false, k.rest⟩

/-- `match.Match(str, pattern)`: `*` matches any run of characters, `?` any one, and `\` keeps
the next character of the pattern as it is. -/
def globMatch : List Char → List Char → Bool
  | [], s => s.isEmpty
  | '*' :: p, s => (List.range (s.length + 1)).any fun i => globMatch p (s.drop i)
  | '?' :: p, s => match s with
    | [] => false
    | _ :: s => globMatch p s
  | ['\\'], _ => false
  | '\\' :: c :: p, s => match s with
    | [] => false
    | d :: s => c == d && globMatch p s
  | c :: p, s => match s with
    | [] => false
    | d :: s => c == d && globMatch p s

/-- A member's key matches the component: by equality, or as a pattern. -/
def Component.keyMatches (k : Component) (key : String) : Bool :=
  if k.wild then globMatch k.part key.toList else k.part == key.toList

/-- The syntax this model reads: no pipe, no modifier or literal at the start or after a `.`,
no query, no multipath at the start or after a `.`, and no JSON lines. -/
def Modelled (p : List Char) : Prop :=
  '|' ∉ p ∧ ¬ ['.', '.'] <+: p ∧ ¬ ['#', '.', '.'] <:+: p ∧
    (p.length ≤ 1 ∨ ∀ c ∈ ['@', '!', '[', '\x7b'], p.head? ≠ some c) ∧
    (∀ c ∈ ['@', '!', '[', '\x7b'], ¬ ['.', c] <:+: p) ∧ (∀ c ∈ ['(', '['], ¬ ['#', c] <:+: p)

instance (p : List Char) : Decidable (Modelled p) := inferInstanceAs (Decidable (_ ∧ _))

/-! ## Trees gjson reads -/

/-- What gjson's scan sees at a node: an object's members under their decoded keys, an array's
elements, or a literal. -/
inductive Shape (α : Type) where
  | obj (members : List (String × α))
  | arr (items : List α)
  | leaf

/-- The shape with every node mapped. -/
def Shape.map {α β : Type} (φ : α → β) : Shape α → Shape β
  | .obj ms => .obj (ms.map fun m => (m.1, φ m.2))
  | .arr xs => .arr (xs.map φ)
  | .leaf => .leaf

/-- A tree gjson reads: the shape of each node, and the two results gjson makes itself, the
count of an array (`#`) and the array a projection (`#.`) collects. -/
structure Reader (α : Type) where
  shape : α → Shape α
  count : Nat → α
  collect : List α → α

section Reading

variable {α : Type} (R : Reader α)

/-- `parseObject` and `parseArray` from a node, for at most `fuel` components. -/
def getIn : Nat → α → List Char → Option α
  | 0, _, _ => none
  | fuel + 1, t, p =>
    match R.shape t with
    | .obj ms =>
      let k := objectComponent p
      ms.findSome? fun m => if k.keyMatches m.1 then
        (match k.rest with
          | none => some m.2
          | some r => getIn fuel m.2 r)
        else none
    | .arr xs =>
      let k := arrayComponent p
      if k.part = ['#'] then
        match k.rest with
        | none => some (R.count xs.length)
        | some r => some (R.collect (xs.filterMap fun x => getIn fuel x r))
      else match parseUint ⟨k.part⟩, k.rest with
        | some n, none => xs[n]?
        | some n, some r => xs[n]?.bind fun x => getIn fuel x r
        | none, _ => none
    | .leaf => none

/-- `gjson.Get(json, path)` from the root, with a component of fuel for every character: nothing
for a path outside the modelled syntax. -/
def Reader.get (t : α) (path : String) : Option α :=
  if Modelled path.toList then getIn R (path.length + 1) t path.toList else none

end Reading

/-! ## Enough fuel -/

theorem objectComponent_rest_length : ∀ (p : List Char) {r : List Char},
    (objectComponent p).rest = some r → r.length < p.length
  | [], _, h => nomatch h
  | c :: p, r, h => by
    by_cases hd : c = '.'
    · subst hd
      cases h
      simp
    by_cases hb : c = '\\'
    · subst hb
      cases p with
      | nil => cases h
      | cons c' q =>
        have := objectComponent_rest_length q h
        simp only [List.length_cons]
        omega
    · have h' : (objectComponent p).rest = some r := by simpa [objectComponent, hd, hb] using h
      have := objectComponent_rest_length p h'
      simp only [List.length_cons]
      omega
termination_by p => p.length

theorem arrayComponent_rest_length : ∀ (p : List Char) {r : List Char},
    (arrayComponent p).rest = some r → r.length < p.length
  | [], _, h => nomatch h
  | c :: p, r, h => by
    by_cases hd : c = '.'
    · subst hd
      cases h
      simp
    · have h' : (arrayComponent p).rest = some r := by simpa [arrayComponent, hd] using h
      have := arrayComponent_rest_length p h'
      simp only [List.length_cons]
      omega

/-- A component of fuel more than the path has characters changes nothing: the fuel of
`Reader.get` never runs out. -/
theorem getIn_succ {α : Type} (R : Reader α) :
    ∀ {f : Nat} (t : α) {p : List Char}, p.length < f → getIn R (f + 1) t p = getIn R f t p
  | 0, _, _, h => absurd h (Nat.not_lt_zero _)
  | f + 1, t, p, h => by
    rw [getIn, getIn]
    rcases R.shape t with ms | xs | -
    · dsimp only
      cases hr : (objectComponent p).rest with
      | none => rfl
      | some r =>
        have hr' : r.length < f := by have := objectComponent_rest_length p hr; omega
        have hv : ∀ v, getIn R (f + 1) v r = getIn R f v r := fun v => getIn_succ R v hr'
        simp only [hv]
    · dsimp only
      cases hr : (arrayComponent p).rest with
      | none => cases parseUint ⟨(arrayComponent p).part⟩ <;> rfl
      | some r =>
        have hr' : r.length < f := by have := arrayComponent_rest_length p hr; omega
        have hx : ∀ x, getIn R (f + 1) x r = getIn R f x r := fun x => getIn_succ R x hr'
        cases parseUint ⟨(arrayComponent p).part⟩ <;> simp only [hx]
    · rfl

/-! ## Maps between trees -/

section Map

variable {α β : Type} {R : Reader α} {S : Reader β} (φ : α → β)

theorem map_findSome? {γ : Type} {g : γ → Option α} {g' : γ → Option β} :
    ∀ {l : List γ}, (∀ x ∈ l, (g x).map φ = g' x) → (l.findSome? g).map φ = l.findSome? g'
  | [], _ => rfl
  | x :: l, h => by
    have hx := h x (List.mem_cons_self _ _)
    simp only [List.findSome?]
    cases hg : g x with
    | none =>
      rw [hg, Option.map_none'] at hx
      rw [← hx]
      exact map_findSome? fun y hy => h y (List.mem_cons_of_mem _ hy)
    | some a => rw [hg] at hx; rw [← hx]; rfl

/-- A map between two trees that keeps the shape of every node and gjson's two made results
carries every lookup of the one to the same lookup of the other. -/
theorem getIn_map (hshape : ∀ t, S.shape (φ t) = (R.shape t).map φ)
    (hcount : ∀ n, φ (R.count n) = S.count n)
    (hcollect : ∀ ts, φ (R.collect ts) = S.collect (ts.map φ)) :
    ∀ (f : Nat) (t : α) (p : List Char), (getIn R f t p).map φ = getIn S f (φ t) p
  | 0, _, _ => rfl
  | f + 1, t, p => by
    have ih := getIn_map hshape hcount hcollect f
    rw [getIn, getIn, hshape]
    rcases R.shape t with ms | xs | -
    · simp only [Shape.map, List.findSome?_map]
      refine map_findSome? φ fun m _ => ?_
      simp only [Function.comp]
      split
      · cases (objectComponent p).rest with
        | none => rfl
        | some r => exact ih m.2 r
      · rfl
    · simp only [Shape.map, List.length_map]
      cases (arrayComponent p).rest with
      | none =>
        split
        · exact congrArg some (hcount _)
        · cases parseUint ⟨(arrayComponent p).part⟩ with
          | none => rfl
          | some n => exact List.getElem?_map φ xs n |>.symm
      | some r =>
        split
        · refine congrArg some ((hcollect _).trans (congrArg S.collect ?_))
          rw [List.map_filterMap, List.filterMap_map]
          exact List.filterMap_congr fun x _ => ih x r
        · cases parseUint ⟨(arrayComponent p).part⟩ with
          | none => rfl
          | some n =>
            simp only [List.getElem?_map, Option.map_bind, Option.bind_map]
            exact congrArg _ (funext fun x => ih x r)
    · rfl

theorem Reader.get_map (hshape : ∀ t, S.shape (φ t) = (R.shape t).map φ)
    (hcount : ∀ n, φ (R.count n) = S.count n)
    (hcollect : ∀ ts, φ (R.collect ts) = S.collect (ts.map φ)) (t : α) (path : String) :
    (R.get t path).map φ = S.get (φ t) path := by
  unfold Reader.get
  split
  · exact getIn_map φ hshape hcount hcollect _ t _
  · rfl

end Map

/-! ## Values -/

/-- Values as gjson reads them: the count of an array is an integer, and a projection an
array. -/
def valueReader : Reader JVal where
  shape
    | .obj kvs => .obj kvs
    | .arr xs => .arr xs
    | _ => .leaf
  count n := .num (JNum.ofInt n)
  collect xs := .arr xs

/-- `gjson.Get(json, path)` on the document. -/
def gjsonGet (doc : JVal) (path : String) : Option JVal := valueReader.get doc path

/-- `messages.#` is the number of messages, `messages.#.role` their roles, and a pattern key
reads the first member it matches. -/
example : gjsonGet (.obj [("messages", .arr [.obj [("role", .str "user")], .obj []])])
      "messages.#" = some (.num 2) ∧
    gjsonGet (.obj [("messages", .arr [.obj [("role", .str "user")], .obj []])])
      "messages.#.role" = some (.arr [.str "user"]) ∧
    gjsonGet (.obj [("top_p", .num 1), ("top_k", .num 2)]) "top_?" = some (.num 1) ∧
    gjsonGet (.obj [("a.b", .num 1)]) "a\\.b" = some (.num 1) := by
  decide

end NewApi
