import Nodeflow.OrderedMap
import Mathlib.Data.List.Nodup

/-!
# Entries of ordered maps

What is found in a map was stored there. In a map whose keys are distinct, what is stored is found.
-/

namespace Nodeflow

theorem eraseDups_of_nodup {α : Type} [BEq α] [LawfulBEq α] {xs : List α} (h : xs.Nodup) :
    xs.eraseDups = xs := by
  induction xs with
  | nil => rfl
  | cons x xs ih =>
      obtain ⟨hx, h⟩ := List.nodup_cons.mp h
      have hkeep : xs.filter (fun y => !y == x) = xs :=
        List.filter_eq_self.mpr fun y hy => by simpa using fun (he : y = x) => hx (he ▸ hy)
      rw [List.eraseDups_cons, hkeep, ih h]

theorem nodup_eraseDups {α : Type} [BEq α] [LawfulBEq α] : (xs : List α) → xs.eraseDups.Nodup
  | [] => List.nodup_nil
  | x :: xs => by
      rw [List.eraseDups_cons]
      refine List.nodup_cons.mpr ⟨fun h => ?_, nodup_eraseDups _⟩
      simpa using List.mem_eraseDups.mp h
termination_by xs => xs.length
decreasing_by exact Nat.lt_succ_of_le (List.length_filter_le _ _)

theorem eraseDups_append_of_subset {α : Type} [BEq α] [LawfulBEq α] {xs ys : List α} (h : ys ⊆ xs) (zs : List α) :
    (xs ++ ys ++ zs).eraseDups = (xs ++ zs).eraseDups := by
  have hys : ys.removeAll xs = [] := by
    simpa [List.removeAll] using fun y hy => h hy
  have hzs : zs.removeAll (xs ++ ys) = zs.removeAll xs := by
    refine List.filter_congr fun z _ => ?_
    simpa using fun hz hy => hz (h hy)
  rw [List.eraseDups_append, List.eraseDups_append, hys, hzs, List.eraseDups_nil, List.append_nil,
    ← List.eraseDups_append]

theorem eraseDups_map {α β : Type} [BEq α] [LawfulBEq α] [BEq β] [LawfulBEq β] {f : α → β} :
    (xs : List α) → (∀ x ∈ xs, ∀ y ∈ xs, f x = f y → x = y) → (xs.map f).eraseDups = xs.eraseDups.map f
  | [], _ => rfl
  | x :: xs, hf => by
      have hfilter : (xs.map f).filter (fun y => !y == f x) = (xs.filter fun y => !y == x).map f := by
        rw [List.filter_map]
        congr 1
        refine List.filter_congr fun y hy => ?_
        have heq : f y = f x ↔ y = x := ⟨hf y (by simp [hy]) x (by simp), congrArg f⟩
        simp [heq]
      rw [List.map_cons, List.eraseDups_cons, List.eraseDups_cons, List.map_cons, hfilter,
        eraseDups_map (xs.filter fun y => !y == x) fun y hy z hz =>
          hf y (by simp [(List.mem_filter.mp hy).1]) z (by simp [(List.mem_filter.mp hz).1])]
termination_by xs => xs.length
decreasing_by exact Nat.lt_succ_of_le (List.length_filter_le _ _)

namespace OrderedMap

variable {κ α : Type} [DecidableEq κ] {m : OrderedMap κ α} {key : κ} {value : α}

theorem mem_of_get? (h : m.get? key = some value) : (key, value) ∈ m.entries.toList := by
  obtain ⟨entry, hfind, rfl⟩ := Option.map_eq_some_iff.mp h
  have hkey : entry.1 = key := by simpa using Array.find?_some hfind
  rw [← hkey]
  exact Array.mem_toList_iff.mpr (Array.mem_of_find?_eq_some hfind)

theorem find?_set {entries : List (κ × α)} {i : Nat} (h : entries.findIdx? (fun e => e.1 = key) = some i)
    (key' : κ) : (entries.set i (key, value)).find? (fun e => e.1 = key') =
      if key' = key then some (key, value) else entries.find? fun e => e.1 = key' := by
  induction entries generalizing i with
  | nil => cases h
  | cons first entries ih =>
      rw [List.findIdx?_cons] at h
      by_cases hfirst : first.1 = key
      · simp only [hfirst, decide_true, if_true, Option.some.injEq] at h
        subst h
        by_cases hk : key' = key
        · simp [hk]
        · simp [hk, hfirst, Ne.symm hk]
      · simp only [hfirst, decide_false, Bool.false_eq_true, if_false, Option.map_eq_some_iff] at h
        obtain ⟨j, hj, rfl⟩ := h
        by_cases hk : first.1 = key'
        · simp [hk, show key' ≠ key from hk ▸ hfirst]
        · simp [hk, ih hj]

theorem get?_insert (m : OrderedMap κ α) (key : κ) (value : α) (key' : κ) :
    (m.insert key value).get? key' = if key' = key then some value else m.get? key' := by
  obtain ⟨⟨entries⟩⟩ := m
  simp only [insert, get?, indexOf?, List.findIdx?_toArray, List.find?_toArray]
  cases hi : entries.findIdx? fun e => e.1 = key with
  | some i =>
      simp only [List.setIfInBounds_toArray, List.find?_toArray, find?_set hi]
      split <;> rfl
  | none =>
      simp only [List.push_toArray, List.find?_toArray, List.find?_append]
      by_cases hk : key' = key
      · subst hk
        have hnone : entries.find? (fun e => e.1 = key') = none := by
          rw [List.find?_eq_none]
          simpa using hi
        simp [hnone]
      · simp [hk, Ne.symm hk]

theorem get?_insertAll (m : OrderedMap κ α) (entries : List (κ × α)) (key : κ) :
    (m.insertAll entries).get? key =
      ((entries.reverse.find? fun e => e.1 = key).map Prod.snd).or (m.get? key) := by
  induction entries generalizing m with
  | nil => rfl
  | cons first entries ih =>
      rw [insertAll, List.foldl_cons, ← insertAll, ih, get?_insert, List.reverse_cons, List.find?_append]
      cases entries.reverse.find? fun e => e.1 = key with
      | some e => simp
      | none =>
          by_cases hk : key = first.1
          · simp [hk]
          · simp [hk, Ne.symm hk]

/-! ## Maps with distinct keys -/

theorem get?_eq_none_iff : m.get? key = none ↔ key ∉ m.keys := by
  simp only [get?, keys, Option.map_eq_none_iff, Array.find?_eq_none, List.mem_map, Array.mem_toList_iff,
    not_exists, not_and, decide_eq_true_eq]

omit [DecidableEq κ] in
theorem eq_of_mem_of_mem (h : m.keys.Nodup) {value' : α} (hv : (key, value) ∈ m.entries.toList)
    (hv' : (key, value') ∈ m.entries.toList) : value = value' :=
  congrArg Prod.snd (List.inj_on_of_nodup_map h hv hv' rfl)

theorem get?_eq_some_iff (h : m.keys.Nodup) :
    m.get? key = some value ↔ (key, value) ∈ m.entries.toList := by
  refine ⟨mem_of_get?, fun hmem => ?_⟩
  cases hget : m.get? key with
  | none => exact absurd (List.mem_map_of_mem (f := Prod.fst) hmem) (get?_eq_none_iff.mp hget)
  | some other => rw [eq_of_mem_of_mem h (mem_of_get? hget) hmem]

theorem mem_values_of_get? (h : m.get? key = some value) : value ∈ m.values :=
  List.mem_map_of_mem (f := Prod.snd) (mem_of_get? h)

theorem exists_get? (h : m.keys.Nodup) (hv : value ∈ m.values) : ∃ key, m.get? key = some value := by
  obtain ⟨⟨key, _⟩, hmem, rfl⟩ := List.mem_map.mp hv
  exact ⟨key, (get?_eq_some_iff h).mpr hmem⟩

omit [DecidableEq κ] in
theorem any_eq_false_iff {test : α → Bool} : m.any test = false ↔ ∀ v ∈ m.values, test v = false := by
  rw [any, ← Array.any_toList, List.any_eq_false]
  simpa [values] using forall_comm

theorem indexOf?_eq_none_iff : m.indexOf? key = none ↔ m.get? key = none := by
  simp [indexOf?, get?]

theorem entries_insert (h : m.get? key = none) :
    (m.insert key value).entries.toList = m.entries.toList ++ [(key, value)] := by
  rw [insert, indexOf?_eq_none_iff.mpr h]
  simp

theorem values_insert (h : m.get? key = none) : (m.insert key value).values = m.values ++ [value] := by
  rw [values, entries_insert h, List.map_append]
  rfl

theorem nodup_insert (hm : m.keys.Nodup) (h : m.get? key = none) : (m.insert key value).keys.Nodup := by
  have hnew := get?_eq_none_iff.mp h
  rw [keys, entries_insert h, List.map_append]
  exact hm.append (List.nodup_singleton key) (List.disjoint_singleton.mpr hnew)

/-- A value under a key that is there takes the place of the old one. -/
theorem keys_insert (h : m.get? key ≠ none) : (m.insert key value).keys = m.keys := by
  obtain ⟨i, hi⟩ := Option.ne_none_iff_exists'.mp (mt indexOf?_eq_none_iff.mp h)
  obtain ⟨hlt, hkey, -⟩ := Array.findIdx?_eq_some_iff_getElem.mp hi
  have hat : m.entries[i].1 = key := by simpa using hkey
  rw [insert, hi]
  refine List.ext_getElem (by simp [keys]) fun j hj hj' => ?_
  by_cases hij : i = j
  · subst hij
    simp [keys, hat]
  · simp [keys, hij]

theorem nodup_insert_of_nodup (hm : m.keys.Nodup) (key : κ) (value : α) : (m.insert key value).keys.Nodup := by
  by_cases h : m.get? key = none
  · exact nodup_insert hm h
  · rw [keys_insert h]
    exact hm

theorem nodup_insertAll (hm : m.keys.Nodup) (entries : List (κ × α)) : (m.insertAll entries).keys.Nodup := by
  induction entries generalizing m with
  | nil => exact hm
  | cons first entries ih => exact ih (nodup_insert_of_nodup hm first.1 first.2)

theorem nodup_ofList (entries : List (κ × α)) : (ofList entries).keys.Nodup :=
  nodup_insertAll (by simp [keys, empty]) entries

theorem entries_insertAll {entries : List (κ × α)} (h : (m.keys ++ entries.map Prod.fst).Nodup) :
    (m.insertAll entries).entries.toList = m.entries.toList ++ entries := by
  induction entries generalizing m with
  | nil => exact (List.append_nil _).symm
  | cons first entries ih =>
      have hnew : m.get? first.1 = none := get?_eq_none_iff.mpr fun hin =>
        (List.nodup_append.mp h).2.2 first.1 hin first.1 (List.mem_cons_self ..) rfl
      have hinsert : (m.insert first.1 first.2).entries.toList = m.entries.toList ++ [first] := entries_insert hnew
      have hkeys : ((m.insert first.1 first.2).keys ++ entries.map Prod.fst).Nodup := by
        rw [keys, hinsert, List.map_append, List.append_assoc]
        exact h
      rw [insertAll, List.foldl_cons, ← insertAll, ih hkeys, hinsert, List.append_assoc]
      rfl

theorem ofList_entries (hm : m.keys.Nodup) : ofList m.entries.toList = m := by
  obtain ⟨entries⟩ := m
  have h : (empty.insertAll entries.toList).entries.toList = empty.entries.toList ++ entries.toList :=
    entries_insertAll (by simpa [keys, empty] using hm)
  exact congrArg OrderedMap.mk (Array.toList_inj.mp h)

theorem get?_insert_iff (hm : m.keys.Nodup) (h : m.get? key = none) {key' : κ} {value' : α} :
    (m.insert key value).get? key' = some value' ↔
      m.get? key' = some value' ∨ key' = key ∧ value' = value := by
  rw [get?_eq_some_iff (nodup_insert hm h), get?_eq_some_iff hm, entries_insert h]
  simp

theorem nodup_erase (hm : m.keys.Nodup) (key : κ) : (m.erase key).keys.Nodup := by
  rw [keys, erase, Array.toList_filter]
  exact hm.sublist (List.filter_sublist.map _)

theorem get?_erase_iff (hm : m.keys.Nodup) {key' : κ} :
    (m.erase key).get? key' = some value ↔ m.get? key' = some value ∧ key' ≠ key := by
  rw [get?_eq_some_iff (nodup_erase hm key), get?_eq_some_iff hm, erase]
  simp

theorem values_erase_sublist (m : OrderedMap κ α) (key : κ) : (m.erase key).values.Sublist m.values := by
  rw [values, erase, Array.toList_filter]
  exact List.filter_sublist.map _

omit [DecidableEq κ] in
theorem nodup_filter (hm : m.keys.Nodup) (keep : α → Bool) : (m.filter keep).keys.Nodup := by
  rw [keys, filter, Array.toList_filter]
  exact hm.sublist (List.filter_sublist.map _)

theorem get?_filter_iff (hm : m.keys.Nodup) {keep : α → Bool} :
    (m.filter keep).get? key = some value ↔ m.get? key = some value ∧ keep value := by
  rw [get?_eq_some_iff (nodup_filter hm keep), get?_eq_some_iff hm, filter]
  simp

omit [DecidableEq κ] in
theorem values_filter (m : OrderedMap κ α) (keep : α → Bool) :
    (m.filter keep).values = m.values.filter keep := by
  rw [values, filter, Array.toList_filter, values, List.filter_map]
  rfl

theorem modify_eq_self (h : m.get? key = none) (change : α → α) : m.modify key change = m := by
  rw [modify, indexOf?_eq_none_iff.mpr h]

theorem exists_entries_modify (hm : m.keys.Nodup) (h : m.get? key = some value) (change : α → α) :
    ∃ before after, m.entries.toList = before ++ (key, value) :: after ∧
      (m.modify key change).entries.toList = before ++ (key, change value) :: after := by
  cases hi : m.indexOf? key with
  | none =>
      rw [indexOf?_eq_none_iff.mp hi] at h
      cases h
  | some i =>
      obtain ⟨hlt, hkey, -⟩ := Array.findIdx?_eq_some_iff_getElem.mp hi
      have hentry : m.entries[i] = (key, value) := by
        have hfst : m.entries[i].1 = key := by simpa using hkey
        have hmem : (key, m.entries[i].2) ∈ m.entries.toList := by
          rw [← hfst]
          exact Array.mem_toList_iff.mpr (Array.getElem_mem hlt)
        exact Prod.ext hfst (eq_of_mem_of_mem hm hmem (mem_of_get? h))
      refine ⟨m.entries.toList.take i, m.entries.toList.drop (i + 1), ?_, ?_⟩
      · rw [← hentry, ← Array.getElem_toList, List.getElem_cons_drop, List.take_append_drop]
      · rw [modify, hi, Array.toList_modify, List.modify_eq_take_cons_drop (by simpa using hlt),
          Array.getElem_toList, hentry]

theorem nodup_modify (hm : m.keys.Nodup) (key : κ) (change : α → α) : (m.modify key change).keys.Nodup := by
  cases hget : m.get? key with
  | none => rwa [modify_eq_self hget]
  | some value =>
      obtain ⟨before, after, hold, hnew⟩ := exists_entries_modify hm hget change
      rw [keys, hold] at hm
      rw [keys, hnew]
      simpa using hm

theorem get?_modify_iff (hm : m.keys.Nodup) (h : m.get? key = some value) {change : α → α} {key' : κ}
    {value' : α} : (m.modify key change).get? key' = some value' ↔
      key' = key ∧ value' = change value ∨ key' ≠ key ∧ m.get? key' = some value' := by
  obtain ⟨before, after, hold, hnew⟩ := exists_entries_modify hm h change
  rw [get?_eq_some_iff (nodup_modify hm key change), get?_eq_some_iff hm, hold, hnew]
  rw [keys, hold] at hm
  have hbefore (other : α) (hmem : (key, other) ∈ before) : False := by
    simp only [List.map_append, List.map_cons, List.nodup_append] at hm
    exact hm.2.2 key (List.mem_map_of_mem (f := Prod.fst) hmem) key (by simp) rfl
  have hafter (other : α) (hmem : (key, other) ∈ after) : False := by
    simp only [List.map_append, List.map_cons, List.nodup_append, List.nodup_cons] at hm
    exact hm.2.1.1 (List.mem_map_of_mem (f := Prod.fst) hmem)
  by_cases hk : key' = key
  · subst hk
    simp only [List.mem_append, List.mem_cons, Prod.mk.injEq, true_and, ne_eq, not_true_eq_false,
      false_and, or_false]
    exact ⟨fun h => (h.resolve_left (hbefore _)).resolve_right (hafter _), fun h => .inr (.inl h)⟩
  · simp [hk]

end OrderedMap

end Nodeflow
