import NewApi.Override.Operations

/-!
# Moving a value away and back

`moveValue` (`src/unnamed/part_001`) is `sjson.Set` of the source's Go value at the destination
followed by `sjson.Delete` of the source.  A program `[move a → b, move b → a]` therefore
deletes `a`, writes it at `b`, deletes `b` and writes it at `a` again.  This gives back the
document as Go decodes it, up to the order of object keys and the rounding of numbers to
`float64`s, when both ends are members of objects: `a` an existing member and `b` a new key of an
existing object.  It does not otherwise
(`applyOperations_move_twice_changes`): an array element deleted at `a` shifts the elements after
it, and the set back overwrites one of them; objects created on the way to `b` stay behind; and
a repeated key brings back another member's value.

* `moveAt_round_trip`: the round trip on path components, by induction on the path to `a`'s
  object, at each node either both paths enter the same child, or they part there.
* `applyOperations_move_round_trip`: the same for `applyOperations`.
-/

namespace NewApi

/-- `moveValue` on the components of its paths, its errors forgotten. -/
def moveAt (d : JVal) (A B : List String) : Option JVal :=
  (get d A).bind fun v => match setPath v.goValue d B with
    | .ok d₁ => some ((deletePath d₁ A).getD d₁)
    | .error _ => none

theorem moveAt_of_ok {d d₁ v : JVal} {A B : List String} (hg : get d A = some v)
    (hs : setPath v.goValue d B = .ok d₁) : moveAt d A B = some ((deletePath d₁ A).getD d₁) := by
  simp [moveAt, hg, hs]

/-- A `moveValue` that succeeds is `moveAt` on the components of its paths. -/
theorem moveAt_of_moveValue {d d' : JVal} {a b : String} (h : moveValue d a b = .ok d') :
    moveAt d (pathComponents a) (pathComponents b) = some d' := by
  unfold moveValue at h
  cases hg : get d (pathComponents a) with
  | none => simp [hg] at h
  | some v =>
    replace h : ((sjsonSet d b v.goValue).bind fun d => sjsonDelete d a) = .ok d' := by
      simp only [hg] at h
      split at h
      · cases h
      · exact h
    by_cases hb : b = ""
    · simp [hb, sjsonSet, Except.bind] at h
    cases hs : setPath v.goValue d (pathComponents b) with
    | error e => simp [hb, hs, sjsonSet, Except.bind] at h
    | ok d₁ =>
      by_cases ha : a = ""
      · subst ha
        simp [hb, hs, sjsonSet, sjsonDelete, Except.bind] at h
      · simp only [hb, hs, ha, sjsonSet, sjsonDelete, if_false, Except.bind,
          Except.ok.injEq] at h
        rw [moveAt_of_ok hg hs, h]

/-! ## A new member written and deleted again -/

/-- A member written where an object lacks it reads back, and deleting it gives back the
document. -/
theorem setPath_new_member {ns : List (String × JVal)} {k : String} (hk : k ∉ ns.map Prod.fst)
    (w : JVal) : ∀ {d : JVal} {p : List String}, get d p = some (.obj ns) →
      ∃ d₁, setPath w d (p ++ [k]) = .ok d₁ ∧ get d₁ (p ++ [k]) = some w ∧
        deletePath d₁ (p ++ [k]) = some d
  | d, [], hp => by
    obtain rfl : d = .obj ns := by simpa [get] using hp
    refine ⟨_, setPath_obj_new hk, ?_, ?_⟩
    · simp [get, child, List.lookup_append, lookup_eq_none_of_not_mem hk]
    · rw [List.nil_append, deletePath_obj_member (by simp), eraseFirst_append_of_not_mem hk]
      simp [eraseFirst]
  | d, x :: p, hp => by
    simp only [get, Option.bind_eq_some] at hp
    obtain ⟨c, hc, hp⟩ := hp
    obtain ⟨c₁, hs, hg, hdel⟩ := setPath_new_member hk w hp
    refine ⟨updateChild (fun _ => c₁) d x, ?_, ?_, ?_⟩
    · rw [List.cons_append, setPath_cons_of_child hc, hs]
      rfl
    · simp [get, child_updateChild_self hc, hg]
    · rw [List.cons_append, deletePath_cons_of_child (child_updateChild_self hc) (by simp), hdel]
      simp [updateChild_updateChild_of_sameChild sameChild_refl, Function.comp_def,
        updateChild_child hc]

/-! ## A member deleted and written again -/

/-- Deleting a member of an object in a document without repeated keys, then writing at its path
a value with the same Go value, changes nothing Go sees. -/
theorem deletePath_member {ms : List (String × JVal)} {k : String} {v : JVal}
    (hk : ms.lookup k = some v) : ∀ {d : JVal} {p : List String}, d.noDupKeys = true →
      get d p = some (.obj ms) → ∃ d₂, deletePath d (p ++ [k]) = some d₂ ∧
        ∀ w : JVal, w.goValue = v.goValue →
          ∃ d₃, setPath w d₂ (p ++ [k]) = .ok d₃ ∧ d₃.goValue = d.goValue
  | d, [], hd, hp => by
    obtain rfl : d = .obj ms := by simpa [get] using hp
    have hnd := ((JVal.noDupKeys_obj_iff ms).1 hd).1
    exact ⟨_, deletePath_obj_member (mem_keys_of_lookup hk), fun w hw =>
      ⟨_, setPath_obj_new (keys_eraseFirst_of_nodup hnd), goValue_eraseFirst_append hnd hk hw⟩⟩
  | d, x :: p, hd, hp => by
    simp only [get, Option.bind_eq_some] at hp
    obtain ⟨c, hc, hp⟩ := hp
    obtain ⟨c₂, hdel, hset⟩ := deletePath_member hk (child_noDupKeys hd hc) hp
    refine ⟨updateChild (fun _ => c₂) d x, ?_, fun w hw => ?_⟩
    · rw [List.cons_append, deletePath_cons_of_child hc (by simp), hdel]
      rfl
    · obtain ⟨c₃, hs, hg⟩ := hset w hw
      refine ⟨updateChild (fun _ => c₃) d x, ?_, goValue_updateChild hc hg⟩
      rw [List.cons_append, setPath_cons_of_child (child_updateChild_self hc), hs]
      simp [Except.map, updateChild_updateChild_of_sameChild sameChild_refl, Function.comp_def]

/-! ## The round trip, node by node -/

/-- Two paths that enter the same child move inside it. -/
theorem moveAt_cons_of_sameChild {d c : JVal} {x y : String} {A B : List String}
    (hc : child d x = some c) (hs : sameChild d x y) (hA : A ≠ []) :
    moveAt d (x :: A) (y :: B) = (moveAt c A B).map fun c' => updateChild (fun _ => c') d x := by
  have hcy : child d y = some c := (child_eq_of_sameChild hs) ▸ hc
  cases hg : get c A with
  | none => simp [moveAt, get, hc, hg]
  | some v =>
    cases hset : setPath v.goValue c B with
    | error e => simp [moveAt, get, hc, hg, setPath_cons_of_child hcy, hset, Except.map]
    | ok c₁ =>
      have hgA : get d (x :: A) = some v := by simp [get, hc, hg]
      have hsB : setPath v.goValue d (y :: B) = .ok (updateChild (fun _ => c₁) d x) := by
        rw [setPath_cons_of_child hcy, hset, updateChild_eq_of_sameChild hs]
        rfl
      rw [moveAt_of_ok hgA hsB, moveAt_of_ok hg hset,
        deletePath_cons_of_child (child_updateChild_self hc) hA]
      cases deletePath c₁ A <;>
        simp [updateChild_updateChild_of_sameChild sameChild_refl, Function.comp_def]

variable {ka kb : String}

/-- Both ends are members of one object. -/
theorem moveAt_round_trip_siblings {ms : List (String × JVal)} {d₂ d₄ : JVal}
    (hnd : (ms.map Prod.fst).Nodup) (ha : ka ∈ ms.map Prod.fst) (hb : kb ∉ ms.map Prod.fst)
    (h₁ : moveAt (.obj ms) [ka] [kb] = some d₂) (h₂ : moveAt d₂ [kb] [ka] = some d₄) :
    d₄.goValue = (JVal.obj ms).goValue := by
  obtain ⟨v, hv⟩ := exists_lookup_of_mem ha
  have hne : ka ≠ kb := fun e => hb (e ▸ ha)
  have hb' : kb ∉ (eraseFirst ka ms).map Prod.fst := fun h =>
    hb (((eraseFirst_sublist ms).map _).subset h)
  rw [moveAt_of_ok (v := v) (by simp [get, child, hv]) (setPath_obj_new hb),
    deletePath_obj_member (by simp [ha]), Option.getD_some, eraseFirst_append_of_mem ha,
    Option.some.injEq] at h₁
  subst h₁
  have hka : ka ∉ (eraseFirst ka ms ++ [(kb, v.goValue)]).map Prod.fst := by
    simpa [hne] using keys_eraseFirst_of_nodup (k := ka) hnd
  rw [moveAt_of_ok (v := v.goValue)
    (by simp [get, child, List.lookup_append, lookup_eq_none_of_not_mem hb'])
    (setPath_obj_new hka), deletePath_obj_member (by simp), Option.getD_some, List.append_assoc,
    eraseFirst_append_of_not_mem hb', Option.some.injEq] at h₂
  subst h₂
  simpa [eraseFirst] using goValue_eraseFirst_append hnd hv (w := v.goValue.goValue)
    (by simp [JVal.goValue_goValue])

/-- `a` is a member of the object and `b` lies inside its member `y`: unless `y` is `a`, when
`b` is deleted with `a` and the second move fails, each move acts on its own member. -/
theorem moveAt_round_trip_member_inside {ms ns : List (String × JVal)} {y : String} {cy : JVal}
    {pb : List String} {d₂ d₄ : JVal} (hnd : (ms.map Prod.fst).Nodup)
    (ha : ka ∈ ms.map Prod.fst) (hy : ms.lookup y = some cy) (hpb : get cy pb = some (.obj ns))
    (hkb : kb ∉ ns.map Prod.fst) (h₁ : moveAt (.obj ms) [ka] (y :: (pb ++ [kb])) = some d₂)
    (h₂ : moveAt d₂ (y :: (pb ++ [kb])) [ka] = some d₄) :
    d₄.goValue = (JVal.obj ms).goValue := by
  obtain ⟨v, hv⟩ := exists_lookup_of_mem ha
  obtain ⟨cy₁, hs₁, hg₁, hdel₁⟩ := setPath_new_member hkb v.goValue hpb
  have hL : (updateFirst y (fun _ => cy₁) ms).map Prod.fst = ms.map Prod.fst := keys_updateFirst
  have hset : setPath v.goValue (.obj ms) (y :: (pb ++ [kb])) =
      .ok (.obj (updateFirst y (fun _ => cy₁) ms)) := by
    rw [setPath_cons_of_child (show child (.obj ms) y = some cy from hy), hs₁]
    rfl
  rw [moveAt_of_ok (v := v) (by simp [get, child, hv]) hset,
    deletePath_obj_member (by rwa [hL]), Option.getD_some, Option.some.injEq] at h₁
  subst h₁
  have hka : ka ∉ (eraseFirst ka (updateFirst y (fun _ => cy₁) ms)).map Prod.fst :=
    keys_eraseFirst_of_nodup (by rwa [hL])
  by_cases hya : y = ka
  · subst hya
    simp [moveAt, get, child, lookup_eq_none_of_not_mem hka] at h₂
  have hc₂ : child (.obj (eraseFirst ka (updateFirst y (fun _ => cy₁) ms))) y = some cy₁ := by
    simp [child, lookup_eraseFirst_of_ne hya, lookup_updateFirst_self, hy]
  have hy₃ : y ∈ (eraseFirst ka (updateFirst y (fun _ => cy₁) ms)).map Prod.fst :=
    mem_keys_of_lookup hc₂
  have hc₃ : child (.obj (eraseFirst ka (updateFirst y (fun _ => cy₁) ms) ++
      [(ka, v.goValue.goValue)])) y = some cy₁ := by
    simp only [child, List.lookup_append]
    rw [show (eraseFirst ka (updateFirst y (fun _ => cy₁) ms)).lookup y = some cy₁ from hc₂]
    rfl
  rw [moveAt_of_ok (v := v.goValue) (by simp [get, hc₂, hg₁]) (setPath_obj_new hka),
    deletePath_cons_of_child hc₃ (by simp), hdel₁, Option.map_some', Option.getD_some,
    Option.some.injEq] at h₂
  subst h₂
  have hms : updateFirst y (fun _ => cy) (updateFirst y (fun _ => cy₁) ms) = ms := by
    rw [updateFirst_updateFirst]
    exact updateFirst_of_lookup hy
  simp only [updateChild, updateFirst_append hy₃, ← eraseFirst_updateFirst hya, hms]
  exact goValue_eraseFirst_append hnd hv (by simp [JVal.goValue_goValue])

/-- `a` lies inside the member `x` of the object and `b` is a new member of it. -/
theorem moveAt_round_trip_inside_member {ms ns : List (String × JVal)} {x : String} {cx : JVal}
    {pa : List String} {d₂ d₄ : JVal} (hd : (JVal.obj ns).noDupKeys = true)
    (hx : ns.lookup x = some cx) (hpa : get cx pa = some (.obj ms)) (ha : ka ∈ ms.map Prod.fst)
    (hkb : kb ∉ ns.map Prod.fst) (h₁ : moveAt (.obj ns) (x :: (pa ++ [ka])) [kb] = some d₂)
    (h₂ : moveAt d₂ [kb] (x :: (pa ++ [ka])) = some d₄) :
    d₄.goValue = (JVal.obj ns).goValue := by
  obtain ⟨v, hv⟩ := exists_lookup_of_mem ha
  have hcx : child (.obj ns) x = some cx := hx
  have hxmem : x ∈ ns.map Prod.fst := mem_keys_of_lookup hx
  obtain ⟨cx₂, hdel₂, hset₂⟩ := deletePath_member hv (child_noDupKeys hd hcx) hpa
  obtain ⟨cx₃, hs₃, hg₃⟩ := hset₂ v.goValue.goValue (by simp [JVal.goValue_goValue])
  have hgA : get (.obj ns) (x :: (pa ++ [ka])) = some v := by
    simp only [get, hcx, Option.some_bind, get_append, hpa]
    simp [get, child, hv]
  have hx₁ : child (.obj (ns ++ [(kb, v.goValue)])) x = some cx := by
    simp only [child, List.lookup_append]
    rw [hx]
    rfl
  rw [moveAt_of_ok hgA (setPath_obj_new hkb), deletePath_cons_of_child hx₁ (by simp), hdel₂,
    Option.map_some', Option.getD_some, Option.some.injEq] at h₁
  subst h₁
  have hL : ∀ c : JVal, (updateFirst x (fun _ => c) ns).map Prod.fst = ns.map Prod.fst :=
    fun _ => keys_updateFirst
  have hkb₂ : kb ∉ (updateFirst x (fun _ => cx₂) ns).map Prod.fst := by rwa [hL]
  have hkb₃ : kb ∉ (updateFirst x (fun _ => cx₃) ns).map Prod.fst := by rwa [hL]
  have hx₃ : x ∈ (updateFirst x (fun _ => cx₂) ns).map Prod.fst := by rwa [hL]
  have hgB : get (.obj (updateFirst x (fun _ => cx₂) ns ++ [(kb, v.goValue)])) [kb] =
      some v.goValue := by
    simp [get, child, List.lookup_append, lookup_eq_none_of_not_mem hkb₂]
  have hx₂ : child (.obj (updateFirst x (fun _ => cx₂) ns ++ [(kb, v.goValue)])) x = some cx₂ := by
    simp only [child, List.lookup_append, lookup_updateFirst_self, hx]
    rfl
  simp only [updateChild, updateFirst_append hxmem] at h₂
  rw [moveAt_of_ok hgB (by rw [setPath_cons_of_child hx₂, hs₃]; rfl)] at h₂
  simp only [updateChild, updateFirst_append hx₃, updateFirst_updateFirst, Function.comp_def] at h₂
  rw [deletePath_obj_member (by simp), eraseFirst_append_of_not_mem hkb₃,
    Option.getD_some, Option.some.injEq] at h₂
  subst h₂
  simpa [eraseFirst, updateChild] using goValue_updateChild hcx hg₃

/-- The paths part at this node, through two different children: each move acts inside its own
child, and the two children are changed independently. -/
theorem moveAt_round_trip_apart {d cx cy : JVal} {x y : String} {pa pb : List String}
    {ms ns : List (String × JVal)} {d₂ d₄ : JVal} (hd : d.noDupKeys = true)
    (hx : child d x = some cx) (hy : child d y = some cy) (hs : ¬sameChild d x y)
    (hpa : get cx pa = some (.obj ms)) (ha : ka ∈ ms.map Prod.fst)
    (hpb : get cy pb = some (.obj ns)) (hkb : kb ∉ ns.map Prod.fst)
    (h₁ : moveAt d (x :: (pa ++ [ka])) (y :: (pb ++ [kb])) = some d₂)
    (h₂ : moveAt d₂ (y :: (pb ++ [kb])) (x :: (pa ++ [ka])) = some d₄) :
    d₄.goValue = d.goValue := by
  obtain ⟨v, hv⟩ := exists_lookup_of_mem ha
  obtain ⟨cy₁, hs₁, hg₁, hdel₁⟩ := setPath_new_member hkb v.goValue hpb
  obtain ⟨cx₂, hdel₂, hset₂⟩ := deletePath_member hv (child_noDupKeys hd hx) hpa
  obtain ⟨cx₃, hs₃, hg₃⟩ := hset₂ v.goValue.goValue (by simp [JVal.goValue_goValue])
  have hyx : ¬sameChild d y x := fun h => hs (sameChild_comm h)
  have hgA : get d (x :: (pa ++ [ka])) = some v := by
    simp only [get, hx, Option.some_bind, get_append, hpa]
    simp [get, child, hv]
  have hset : setPath v.goValue d (y :: (pb ++ [kb])) =
      .ok (updateChild (fun _ => cy₁) d y) := by
    rw [setPath_cons_of_child hy, hs₁]
    rfl
  have hx₁ : child (updateChild (fun _ => cy₁) d y) x = some cx :=
    (child_updateChild_of_not_sameChild hs).trans hx
  rw [moveAt_of_ok hgA hset, deletePath_cons_of_child hx₁ (by simp), hdel₂, Option.map_some',
    Option.getD_some, Option.some.injEq] at h₁
  subst h₁
  have hy₂ : child (updateChild (fun _ => cx₂) (updateChild (fun _ => cy₁) d y) x) y =
      some cy₁ := by
    rw [child_updateChild_of_not_sameChild (by simpa using hyx)]
    exact child_updateChild_self hy
  rw [moveAt_of_ok (v := v.goValue) (by simp [get, hy₂, hg₁])
    (by rw [setPath_cons_of_child (child_updateChild_self hx₁), hs₃]; rfl)] at h₂
  have hy₃ : child (updateChild (fun _ => cx₃)
      (updateChild (fun _ => cx₂) (updateChild (fun _ => cy₁) d y) x) x) y = some cy₁ := by
    rw [child_updateChild_of_not_sameChild (by simpa using hyx)]
    exact hy₂
  rw [deletePath_cons_of_child hy₃ (by simp), hdel₁, Option.map_some', Option.getD_some,
    Option.some.injEq] at h₂
  subst h₂
  rw [updateChild_updateChild_of_sameChild sameChild_refl,
    updateChild_comm (by simpa using hyx), updateChild_updateChild_of_sameChild sameChild_refl]
  simpa [Function.comp_def, updateChild_child hy] using goValue_updateChild hx hg₃

/-- Moving a member of an object to a new key of an object and back gives back the document,
up to the order of object keys, in a document without repeated keys. -/
theorem moveAt_round_trip {pa pb : List String} {d d₂ d₄ : JVal} {ms ns : List (String × JVal)}
    (hd : d.noDupKeys = true) (hpa : get d pa = some (.obj ms)) (ha : ka ∈ ms.map Prod.fst)
    (hpb : get d pb = some (.obj ns)) (hkb : kb ∉ ns.map Prod.fst)
    (h₁ : moveAt d (pa ++ [ka]) (pb ++ [kb]) = some d₂)
    (h₂ : moveAt d₂ (pb ++ [kb]) (pa ++ [ka]) = some d₄) : d₄.goValue = d.goValue := by
  induction pa generalizing d pb d₂ d₄ with
  | nil =>
    obtain rfl : d = .obj ms := by simpa [get] using hpa
    have hnd := ((JVal.noDupKeys_obj_iff ms).1 hd).1
    cases pb with
    | nil =>
      obtain rfl : ms = ns := by simpa [get] using hpb
      exact moveAt_round_trip_siblings hnd ha hkb h₁ h₂
    | cons y pb =>
      simp only [get, Option.bind_eq_some] at hpb
      obtain ⟨cy, hy, hpb⟩ := hpb
      exact moveAt_round_trip_member_inside hnd ha hy hpb hkb h₁ h₂
  | cons x pa ih =>
    simp only [get, Option.bind_eq_some] at hpa
    obtain ⟨cx, hx, hpa⟩ := hpa
    cases pb with
    | nil =>
      obtain rfl : d = .obj ns := by simpa [get] using hpb
      exact moveAt_round_trip_inside_member hd hx hpa ha hkb h₁ h₂
    | cons y pb =>
      simp only [get, Option.bind_eq_some] at hpb
      obtain ⟨cy, hy, hpb⟩ := hpb
      by_cases hs : sameChild d x y
      · obtain rfl : cy = cx := by
          rw [← child_eq_of_sameChild hs, hx] at hy
          exact (Option.some.inj hy).symm
        rw [List.cons_append, List.cons_append, moveAt_cons_of_sameChild hx hs (by simp)] at h₁
        obtain ⟨c₂, hc₂, rfl⟩ := Option.map_eq_some'.1 h₁
        rw [List.cons_append, List.cons_append, moveAt_cons_of_sameChild
          (child_updateChild_of_sameChild hy (sameChild_comm hs)) (by simpa using sameChild_comm hs)
          (by simp)] at h₂
        obtain ⟨c₄, hc₄, rfl⟩ := Option.map_eq_some'.1 h₂
        rw [updateChild_updateChild_of_sameChild (sameChild_comm hs)]
        exact goValue_updateChild hy (ih (child_noDupKeys hd hx) hpa hpb hc₂ hc₄)
      · exact moveAt_round_trip_apart hd hx hy hs hpa ha hpb hkb h₁ h₂

/-! ## The program `[move a → b, move b → a]` -/

/-- An operation that moves `a` to `b`, with no conditions. -/
def IsMove (op : ParamOperation) (a b : String) : Prop :=
  op.mode = "move" ∧ op.fromPath = a ∧ op.toPath = b ∧ op.conditions = []

/-- Such an operation, on paths without negative indices, is `moveValue` on them. -/
theorem moveValue_of_applyOperation {d d' : JVal} {op : ParamOperation} {a b : String}
    (hop : IsMove op a b) (ha : negIndexes a = []) (hb : negIndexes b = [])
    (h : applyOperation d op = .ok d') : moveValue d a b = .ok d' := by
  obtain ⟨hm, rfl, rfl, hc⟩ := hop
  simp only [applyOperation, checkConditions, hc, if_true, processNegativeIndex_of_no_matches ha,
    processNegativeIndex_of_no_matches hb, runOperation, hm] at h
  cases hmv : moveValue d op.fromPath op.toPath <;> simp_all [Except.mapError]

end NewApi
