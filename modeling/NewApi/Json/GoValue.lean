import NewApi.Json.Path

/-!
# Go's view of a value: `goValue`

A value that Go decodes and encodes again (`Result.Value()`, then `json.Marshal` inside
`sjson.Set`) is `JVal.goValue` of it: its objects keep the last value of a repeated key and are
written with their keys sorted.  This file proves what the round trip through Go keeps.

* `goValue_goValue`: decoding and encoding again changes nothing more.
* `sortByKey_eq_of_perm`: with keys that do not repeat, the order of an object's members is
  forgotten; `goValue_eraseFirst_append` is the case of a member removed and written again at
  the end.
* `goValue_updateChild`: the Go value of a document depends on a child only through the child's
  Go value.
* `lookup_keepLast`: the value a Go map decoded from an object holds at a key is the last one the
  object gives it; `lookup_sortByKey`: sorting members with distinct keys keeps every key's value;
  `perm_of_lookup_eq`: members with distinct keys are fixed, up to order, by the value of each key.
-/

namespace NewApi

/-! ## Sorting by key -/

section Sorting

variable {α : Type}

instance : IsTotal (String × α) keyLE := ⟨fun a b => le_total a.1.toList b.1.toList⟩

instance : IsTrans (String × α) keyLE := ⟨fun _ _ _ => le_trans⟩

/-- Strictly increasing keys. -/
def keyLT (a b : String × α) : Prop := a.1.toList < b.1.toList

instance : IsAntisymm (String × α) keyLT :=
  ⟨fun _ _ h₁ h₂ => absurd (lt_trans h₁ h₂) (lt_irrefl _)⟩

theorem perm_sortByKey (l : List (String × α)) : (sortByKey l).Perm l :=
  List.perm_insertionSort _ l

theorem sorted_sortByKey (l : List (String × α)) : (sortByKey l).Sorted keyLE :=
  List.sorted_insertionSort _ l

theorem sortByKey_sortByKey (l : List (String × α)) : sortByKey (sortByKey l) = sortByKey l :=
  (sorted_sortByKey l).insertionSort_eq

/-- Sorted members whose keys do not repeat have strictly increasing keys. -/
theorem sorted_keyLT_of_nodup {l : List (String × α)} (hs : l.Sorted keyLE)
    (hnd : (l.map Prod.fst).Nodup) : l.Sorted keyLT := by
  have hne : l.Pairwise fun a b => a.1 ≠ b.1 := List.pairwise_map.1 hnd
  exact (hs.and hne).imp fun h => lt_of_le_of_ne h.1 fun e => h.2 (String.ext e)

/-- Members with keys that do not repeat sort the same in any order. -/
theorem sortByKey_eq_of_perm {l₁ l₂ : List (String × α)} (hp : l₁.Perm l₂)
    (hnd : (l₁.map Prod.fst).Nodup) : sortByKey l₁ = sortByKey l₂ := by
  have hp' : (sortByKey l₁).Perm (sortByKey l₂) :=
    (perm_sortByKey l₁).trans (hp.trans (perm_sortByKey l₂).symm)
  have hnd₁ := ((perm_sortByKey l₁).map Prod.fst).nodup_iff.2 hnd
  have hnd₂ := (hp'.map Prod.fst).nodup_iff.1 hnd₁
  exact List.eq_of_perm_of_sorted hp' (sorted_keyLT_of_nodup (sorted_sortByKey l₁) hnd₁)
    (sorted_keyLT_of_nodup (sorted_sortByKey l₂) hnd₂)

/-- Changing the values only commutes with sorting by key. -/
theorem map_sortByKey {β : Type} (f : String × α → String × β) (hf : ∀ a, (f a).1 = a.1)
    (l : List (String × α)) : (sortByKey l).map f = sortByKey (l.map f) :=
  List.map_insertionSort _ _ f l fun a _ b _ => by simp [keyLE, hf]

end Sorting

/-! ## Keeping the last value of a key -/

section KeepLast

variable {α : Type} {l : List (String × α)}

theorem keepLast_sublist (l : List (String × α)) : (keepLast l).Sublist l := by
  induction l with
  | nil => exact List.Sublist.slnil
  | cons kv l ih =>
    obtain ⟨k, v⟩ := kv
    by_cases h : k ∈ l.map Prod.fst
    · simpa [keepLast, h] using ih.cons (k, v)
    · simpa [keepLast, h] using ih.cons₂ (k, v)

theorem nodup_keys_keepLast (l : List (String × α)) : ((keepLast l).map Prod.fst).Nodup := by
  induction l with
  | nil => exact List.nodup_nil
  | cons kv l ih =>
    obtain ⟨k, v⟩ := kv
    by_cases h : k ∈ l.map Prod.fst
    · simpa [keepLast, h] using ih
    · have hk : k ∉ (keepLast l).map Prod.fst := fun hk => h (((keepLast_sublist l).map _).subset hk)
      simp only [keepLast, h, if_false, List.map_cons, List.nodup_cons]
      exact ⟨hk, ih⟩

theorem keepLast_of_nodup (h : (l.map Prod.fst).Nodup) : keepLast l = l := by
  induction l with
  | nil => rfl
  | cons kv l ih =>
    obtain ⟨k, v⟩ := kv
    rw [List.map_cons, List.nodup_cons] at h
    simp [keepLast, h.1, ih h.2]

/-- Changing the values only commutes with keeping the last value of a key. -/
theorem keepLast_map {β : Type} (f : String × α → String × β) (hf : ∀ a, (f a).1 = a.1)
    (l : List (String × α)) : keepLast (l.map f) = (keepLast l).map f := by
  have hkeys : ∀ l : List (String × α), (l.map f).map Prod.fst = l.map Prod.fst := fun l => by
    simp [Function.comp_def, hf]
  induction l with
  | nil => rfl
  | cons kv l ih =>
    obtain ⟨k, v⟩ := kv
    have hk : (f (k, v)).1 = k := hf _
    rcases hfkv : f (k, v) with ⟨k', v'⟩
    rw [hfkv] at hk
    subst hk
    by_cases h : k' ∈ l.map Prod.fst <;> simp [keepLast, hfkv, hkeys, h, ih]

end KeepLast

/-! ## The value of a key -/

section Lookups

variable {α : Type} {l l₁ l₂ : List (String × α)} {k : String}

/-- With keys that do not repeat, the value of a key does not depend on the members' order. -/
theorem lookup_of_perm (hp : l₁.Perm l₂) (hnd : (l₁.map Prod.fst).Nodup) :
    l₁.lookup k = l₂.lookup k := by
  induction hp with
  | nil => rfl
  | cons kv _ ih =>
    obtain ⟨k', v⟩ := kv
    rw [List.map_cons, List.nodup_cons] at hnd
    simp [ih hnd.2]
  | swap a b l =>
    obtain ⟨ka, va⟩ := a
    obtain ⟨kb, vb⟩ := b
    have hne : kb ≠ ka := fun e => (List.nodup_cons.1 hnd).1 (e ▸ List.mem_cons_self _ _)
    by_cases h : ka = k
    · subst h
      simp [hne]
    · simp [h]
  | trans h₁ _ ih₁ ih₂ => exact (ih₁ hnd).trans (ih₂ ((h₁.map Prod.fst).nodup_iff.1 hnd))

theorem lookup_sortByKey (hnd : (l.map Prod.fst).Nodup) : (sortByKey l).lookup k = l.lookup k :=
  lookup_of_perm (perm_sortByKey l) (((perm_sortByKey l).map Prod.fst).nodup_iff.2 hnd)

/-- The value a Go map decoded from members holds at a key: the last one the members give it. -/
theorem lookup_keepLast : (keepLast l).lookup k = l.reverse.lookup k := by
  induction l with
  | nil => rfl
  | cons kv l ih =>
    obtain ⟨k', v⟩ := kv
    have hrev : k' ∈ l.map Prod.fst ↔ k' ∈ l.reverse.map Prod.fst := by
      rw [List.map_reverse, List.mem_reverse]
    rw [List.reverse_cons, List.lookup_append]
    by_cases hk : k' = k
    · subst hk
      by_cases h : k' ∈ l.map Prod.fst
      · obtain ⟨w, hw⟩ := exists_lookup_of_mem (hrev.1 h)
        simp [keepLast, h, ih, hw]
      · simp [keepLast, h, ih, lookup_eq_none_of_not_mem (mt hrev.2 h)]
    · by_cases h : k' ∈ l.map Prod.fst <;> simp [keepLast, h, hk, ih]

/-- With keys that do not repeat, a key looks up a value exactly when the pair is a member. -/
theorem lookup_eq_some_iff_mem (hnd : (l.map Prod.fst).Nodup) {v : α} :
    l.lookup k = some v ↔ (k, v) ∈ l := by
  induction l with
  | nil => simp
  | cons kv l ih =>
    obtain ⟨k', w⟩ := kv
    rw [List.map_cons, List.nodup_cons] at hnd
    by_cases h : k' = k
    · subst h
      have : (k', v) ∉ l := fun hm => hnd.1 (List.mem_map.2 ⟨_, hm, rfl⟩)
      simp [this, eq_comm]
    · simp [h, ih hnd.2, Ne.symm h]

/-- Members whose keys do not repeat and that give every key the same value are reorderings of
each other. -/
theorem perm_of_lookup_eq (hnd₁ : (l₁.map Prod.fst).Nodup) (hnd₂ : (l₂.map Prod.fst).Nodup)
    (h : ∀ k, l₁.lookup k = l₂.lookup k) : l₁.Perm l₂ :=
  (List.perm_ext_iff_of_nodup (hnd₁.of_map Prod.fst) (hnd₂.of_map Prod.fst)).2 fun ⟨k, v⟩ => by
    rw [← lookup_eq_some_iff_mem hnd₁, ← lookup_eq_some_iff_mem hnd₂, h]

theorem nodup_keys_of_sorted (hs : l.Sorted keyLT) : (l.map Prod.fst).Nodup :=
  List.pairwise_map.2 (hs.imp fun h e => by simp only [keyLT, e] at h; exact lt_irrefl _ h)

/-- Members sorted by strictly increasing key are fixed by the value of each key. -/
theorem eq_of_lookup_eq_of_sorted (hs₁ : l₁.Sorted keyLT) (hs₂ : l₂.Sorted keyLT)
    (h : ∀ k, l₁.lookup k = l₂.lookup k) : l₁ = l₂ :=
  List.eq_of_perm_of_sorted (perm_of_lookup_eq (nodup_keys_of_sorted hs₁) (nodup_keys_of_sorted hs₂) h)
    hs₁ hs₂
end Lookups

/-! ## `goValue` -/

/-- A member as Go writes it back. -/
def goMember (kv : String × JVal) : String × JVal := (kv.1, kv.2.goValue)

@[simp] theorem goMember_fst (kv : String × JVal) : (goMember kv).1 = kv.1 := rfl

theorem JVal.goList_eq_map (xs : List JVal) : JVal.goList xs = xs.map JVal.goValue := by
  induction xs with
  | nil => rfl
  | cons x xs ih => simp [JVal.goList, ih]

theorem JVal.goMembers_eq_map (kvs : List (String × JVal)) :
    JVal.goMembers kvs = kvs.map goMember := by
  induction kvs with
  | nil => rfl
  | cons kv kvs ih => obtain ⟨k, v⟩ := kv; simp [JVal.goMembers, ih, goMember]

@[simp] theorem JVal.goValue_arr (xs : List JVal) :
    (JVal.arr xs).goValue = .arr (xs.map JVal.goValue) := by
  simp [JVal.goValue, JVal.goList_eq_map]

@[simp] theorem JVal.goValue_obj (kvs : List (String × JVal)) :
    (JVal.obj kvs).goValue = .obj (sortByKey (keepLast (kvs.map goMember))) := by
  simp [JVal.goValue, JVal.goMembers_eq_map]

mutual
/-- Decoding the JSON that Go wrote and writing it again changes nothing. -/
theorem JVal.goValue_goValue : ∀ v : JVal, v.goValue.goValue = v.goValue
  | .null | .bool _ | .str _ => rfl
  | .num n => congrArg JVal.num n.goNum_goNum
  | .arr xs => by simp [JVal.goValue_goValue_list xs]
  | .obj kvs => by
    have hS : (sortByKey (keepLast (kvs.map goMember))).map goMember =
        sortByKey (keepLast (kvs.map goMember)) := by
      rw [map_sortByKey _ goMember_fst, ← keepLast_map _ goMember_fst,
        JVal.goValue_goValue_members kvs]
    have hnd : ((sortByKey (keepLast (kvs.map goMember))).map Prod.fst).Nodup :=
      ((perm_sortByKey _).map Prod.fst).nodup_iff.2 (nodup_keys_keepLast _)
    rw [JVal.goValue_obj, JVal.goValue_obj, hS, keepLast_of_nodup hnd, sortByKey_sortByKey]
theorem JVal.goValue_goValue_list :
    ∀ xs : List JVal, (xs.map JVal.goValue).map JVal.goValue = xs.map JVal.goValue
  | [] => rfl
  | x :: xs => by simp only [List.map_cons, JVal.goValue_goValue x, JVal.goValue_goValue_list xs]
theorem JVal.goValue_goValue_members :
    ∀ kvs : List (String × JVal), (kvs.map goMember).map goMember = kvs.map goMember
  | [] => rfl
  | (k, v) :: kvs => by
    simp only [List.map_cons, goMember, JVal.goValue_goValue v]
    exact congrArg _ (JVal.goValue_goValue_members kvs)
end

/-! ## Members removed and written again -/

section Members

variable {kvs : List (String × JVal)} {k : String} {v w : JVal}

theorem lookup_map_goMember : (kvs.map goMember).lookup k = (kvs.lookup k).map JVal.goValue := by
  induction kvs with
  | nil => rfl
  | cons kv kvs ih => obtain ⟨k', v'⟩ := kv; by_cases h : k' = k <;> simp [goMember, h, ih]

theorem map_goMember_eraseFirst : (eraseFirst k kvs).map goMember = eraseFirst k (kvs.map goMember) := by
  induction kvs with
  | nil => rfl
  | cons kv kvs ih => obtain ⟨k', v'⟩ := kv; by_cases h : k' = k <;> simp [eraseFirst, goMember, h, ih]

@[simp] theorem keys_map_goMember : (kvs.map goMember).map Prod.fst = kvs.map Prod.fst := by
  simp [Function.comp_def]

/-- The first member with key `k`, removed and put back at the end, is a reordering. -/
theorem perm_eraseFirst_append {α : Type} {l : List (String × α)} {u : α}
    (h : l.lookup k = some u) : (eraseFirst k l ++ [(k, u)]).Perm l := by
  induction l with
  | nil => simp at h
  | cons kv l ih =>
    obtain ⟨k', v'⟩ := kv
    by_cases hk : k' = k
    · subst hk
      simp only [lookup_cons_pair, if_true, Option.some.injEq] at h
      subst h
      simp [eraseFirst]
    · simp only [lookup_cons_pair, hk, if_false] at h
      simpa [eraseFirst, hk] using (ih h).cons (k', v')

/-- In an object whose keys do not repeat, removing a member and writing it again at the end with
the same Go value changes nothing Go sees. -/
theorem goValue_eraseFirst_append (hnd : (kvs.map Prod.fst).Nodup) (hk : kvs.lookup k = some v)
    (hw : w.goValue = v.goValue) :
    (JVal.obj (eraseFirst k kvs ++ [(k, w)])).goValue = (JVal.obj kvs).goValue := by
  have hL : (kvs.map goMember).lookup k = some v.goValue := by simp [lookup_map_goMember, hk]
  have hp := perm_eraseFirst_append hL
  have hnd' : ((eraseFirst k (kvs.map goMember) ++ [(k, v.goValue)]).map Prod.fst).Nodup :=
    (hp.map Prod.fst).nodup_iff.2 (by simpa using hnd)
  simp only [JVal.goValue_obj, List.map_append, map_goMember_eraseFirst, List.map_cons,
    List.map_nil, goMember, hw]
  rw [keepLast_of_nodup hnd', keepLast_of_nodup (by simpa using hnd)]
  exact congrArg JVal.obj (sortByKey_eq_of_perm hp hnd')

theorem map_goMember_updateFirst {c' : JVal} (h : kvs.lookup k = some v)
    (hc : c'.goValue = v.goValue) :
    (updateFirst k (fun _ => c') kvs).map goMember = kvs.map goMember := by
  induction kvs with
  | nil => rfl
  | cons kv kvs ih =>
    obtain ⟨k', v'⟩ := kv
    by_cases hk : k' = k
    · simp only [lookup_cons_pair, hk, if_true, Option.some.injEq] at h
      simp [updateFirst, hk, goMember, hc, h]
    · simp only [lookup_cons_pair, hk, if_false] at h
      simp [updateFirst, hk, ih h]

end Members

/-! ## A child changed to one with the same Go value -/

/-- The Go value of a node depends on a child only through the child's Go value. -/
theorem goValue_updateChild {d c c' : JVal} {x : String} (h : child d x = some c)
    (hc : c'.goValue = c.goValue) : (updateChild (fun _ => c') d x).goValue = d.goValue := by
  cases d with
  | obj kvs => simp [updateChild, map_goMember_updateFirst h hc]
  | arr xs =>
    cases hi : parseUint x with
    | none => simp [updateChild, hi]
    | some i =>
      simp only [child, hi, Option.some_bind] at h
      simp only [updateChild, hi, JVal.goValue_arr, JVal.arr.injEq]
      apply List.ext_getElem?
      intro j
      by_cases hj : i = j
      · subst hj
        simp [List.getElem?_modify_eq, h, hc]
      · simp [List.getElem?_modify_ne _ _ hj]
  | _ => rfl

/-! ## Keys that do not repeat -/

theorem JVal.noDupKeysList_iff (xs : List JVal) :
    JVal.noDupKeysList xs = true ↔ ∀ x ∈ xs, x.noDupKeys = true := by
  induction xs with
  | nil => simp [JVal.noDupKeysList]
  | cons x xs ih => simp [JVal.noDupKeysList, ih]

theorem JVal.noDupKeysMembers_iff (kvs : List (String × JVal)) :
    JVal.noDupKeysMembers kvs = true ↔ ∀ kv ∈ kvs, kv.2.noDupKeys = true := by
  induction kvs with
  | nil => simp [JVal.noDupKeysMembers]
  | cons kv kvs ih => obtain ⟨k, v⟩ := kv; simp [JVal.noDupKeysMembers, ih]

theorem JVal.noDupKeys_obj_iff (kvs : List (String × JVal)) :
    (JVal.obj kvs).noDupKeys = true ↔
      (kvs.map Prod.fst).Nodup ∧ ∀ kv ∈ kvs, kv.2.noDupKeys = true := by
  simp [JVal.noDupKeys, JVal.noDupKeysMembers_iff]

theorem child_noDupKeys {d c : JVal} {x : String} (hd : d.noDupKeys = true)
    (h : child d x = some c) : c.noDupKeys = true := by
  cases d with
  | obj kvs =>
    obtain ⟨l₁, l₂, rfl, -⟩ := List.lookup_eq_some_iff.1 h
    exact ((JVal.noDupKeys_obj_iff _).1 hd).2 (x, c) (by simp)
  | arr xs =>
    cases hi : parseUint x with
    | none => simp [child, hi] at h
    | some i =>
      simp only [child, hi, Option.some_bind] at h
      exact (JVal.noDupKeysList_iff xs).1 hd c (List.mem_iff_getElem?.2 ⟨i, h⟩)
  | _ => simp [child] at h

theorem get_noDupKeys {d c : JVal} {p : List String} (hd : d.noDupKeys = true)
    (h : get d p = some c) : c.noDupKeys = true := by
  induction p generalizing d with
  | nil =>
    simp only [get, Option.some.injEq] at h
    exact h ▸ hd
  | cons x p ih =>
    simp only [get, Option.bind_eq_some] at h
    obtain ⟨c₀, h₀, h⟩ := h
    exact ih (child_noDupKeys hd h₀) h

/-! ## Numbers within `float64`'s range -/

theorem JVal.firstOutOfRangeList_eq_none (xs : List JVal) :
    JVal.firstOutOfRangeList xs = none ↔ ∀ x ∈ xs, x.inRange = true := by
  induction xs with
  | nil => simp [JVal.firstOutOfRangeList]
  | cons x xs ih =>
    cases h : x.firstOutOfRange <;> simp [JVal.firstOutOfRangeList, JVal.inRange, h, ih]

theorem JVal.firstOutOfRangeMembers_eq_none (kvs : List (String × JVal)) :
    JVal.firstOutOfRangeMembers kvs = none ↔ ∀ kv ∈ kvs, kv.2.inRange = true := by
  induction kvs with
  | nil => simp [JVal.firstOutOfRangeMembers]
  | cons kv kvs ih =>
    obtain ⟨k, v⟩ := kv
    cases h : v.firstOutOfRange <;> simp [JVal.firstOutOfRangeMembers, JVal.inRange, h, ih]

@[simp] theorem JVal.inRange_num (n : JNum) : (JVal.num n).inRange = n.inRange := by
  by_cases h : n.inRange <;> simp [JVal.inRange, JVal.firstOutOfRange, h]

theorem JVal.inRange_arr (xs : List JVal) :
    (JVal.arr xs).inRange = true ↔ ∀ x ∈ xs, x.inRange = true := by
  rw [← JVal.firstOutOfRangeList_eq_none]
  simp [JVal.inRange, JVal.firstOutOfRange]

theorem JVal.inRange_obj (kvs : List (String × JVal)) :
    (JVal.obj kvs).inRange = true ↔ ∀ kv ∈ kvs, kv.2.inRange = true := by
  rw [← JVal.firstOutOfRangeMembers_eq_none]
  simp [JVal.inRange, JVal.firstOutOfRange]

mutual
/-- Go's decoding keeps a number within `float64`'s range within it. -/
theorem JVal.inRange_goValue : ∀ v : JVal, v.inRange = true → v.goValue.inRange = true
  | .null, _ | .bool _, _ | .str _, _ => rfl
  | .num n, h => by simpa [JVal.goValue] using h
  | .arr xs, h => by
    rw [JVal.goValue_arr, JVal.inRange_arr]
    exact JVal.inRange_goList xs ((JVal.inRange_arr xs).1 h)
  | .obj kvs, h => by
    rw [JVal.goValue_obj, JVal.inRange_obj]
    exact fun kv hkv => JVal.inRange_goMembers kvs ((JVal.inRange_obj kvs).1 h) kv
      ((keepLast_sublist _).subset ((perm_sortByKey _).subset hkv))
theorem JVal.inRange_goList : ∀ xs : List JVal, (∀ x ∈ xs, x.inRange = true) →
    ∀ y ∈ xs.map JVal.goValue, y.inRange = true
  | [], _ => by simp
  | x :: xs, h => by
    rw [List.map_cons, List.forall_mem_cons]
    exact ⟨JVal.inRange_goValue x (h x (List.mem_cons_self _ _)),
      JVal.inRange_goList xs fun y hy => h y (List.mem_cons_of_mem _ hy)⟩
theorem JVal.inRange_goMembers : ∀ kvs : List (String × JVal), (∀ kv ∈ kvs, kv.2.inRange = true) →
    ∀ kv ∈ kvs.map goMember, kv.2.inRange = true
  | [], _ => by simp
  | (k, v) :: kvs, h => by
    rw [List.map_cons, List.forall_mem_cons]
    exact ⟨JVal.inRange_goValue v (h (k, v) (List.mem_cons_self _ _)),
      JVal.inRange_goMembers kvs fun kv hkv => h kv (List.mem_cons_of_mem _ hkv)⟩
end

/-- `json.Marshal` writes a value whose numbers are all within range. -/
theorem JVal.marshalError_eq_none {v : JVal} (h : v.inRange = true) : v.marshalError = none := by
  have h' := JVal.inRange_goValue v h
  simp only [JVal.inRange, Option.isNone_iff_eq_none] at h'
  simp [JVal.marshalError, h']

theorem JVal.marshalError_eq_of_goValue {u v : JVal} (h : u.goValue = v.goValue) :
    u.marshalError = v.marshalError := by
  simp only [JVal.marshalError, h]

/-- `json.Unmarshal` reads a text whose numbers are all within range. -/
theorem JVal.unmarshalError_eq_none {v : JVal} (h : v.inRange = true) : v.unmarshalError = none := by
  simp only [JVal.inRange, Option.isNone_iff_eq_none] at h
  simp [JVal.unmarshalError, h]

theorem child_inRange {d c : JVal} {x : String} (hd : d.inRange = true)
    (h : child d x = some c) : c.inRange = true := by
  cases d with
  | obj kvs =>
    obtain ⟨l₁, l₂, rfl, -⟩ := List.lookup_eq_some_iff.1 h
    exact (JVal.inRange_obj _).1 hd (x, c) (by simp)
  | arr xs =>
    cases hi : parseUint x with
    | none => simp [child, hi] at h
    | some i =>
      simp only [child, hi, Option.some_bind] at h
      exact (JVal.inRange_arr xs).1 hd c (List.mem_iff_getElem?.2 ⟨i, h⟩)
  | _ => simp [child] at h

theorem get_inRange {d c : JVal} {p : List String} (hd : d.inRange = true)
    (h : get d p = some c) : c.inRange = true := by
  induction p generalizing d with
  | nil =>
    simp only [get, Option.some.injEq] at h
    exact h ▸ hd
  | cons x p ih =>
    simp only [get, Option.bind_eq_some] at h
    obtain ⟨c₀, h₀, h⟩ := h
    exact ih (child_inRange hd h₀) h

end NewApi
