import Nodeflow.Tuple
import Nodeflow.Proofs.Fault

/-!
# Reading and storing elements of tuples
-/

namespace Nodeflow.Tuple

variable {t t' : Tuple} {i j : Nat} {v w : Value} {content : Option Value}

theorem replace_getElem? (t : Tuple) (i j : Nat) (content : Option Value) :
    (t.replace i content).slots[j]? =
      if i = j then t.slots[j]?.map fun slot => { slot with content } else t.slots[j]? := by
  simp only [replace, Array.getElem?_modify]

theorem value?_eq_ok_iff : t.value? i = .ok content ↔
    ∃ slot, t.slots[i]? = some slot ∧ slot.content = content := by
  simp [value?]

theorem isFilled_eq_ok_iff {b : Bool} : t.isFilled i = .ok b ↔
    ∃ content, t.value? i = .ok content ∧ content.isSome = b := by
  simp [isFilled]

theorem value_eq_ok_iff : t.value i = .ok v ↔ t.value? i = .ok (some v) := by
  rw [value?_eq_ok_iff]
  simp only [value, bind_eq_ok_iff, elementAt_eq_ok_iff]
  refine exists_congr fun slot => and_congr_right fun _ => ?_
  cases slot.content <;> simp

theorem value_eq_ok_iff_slot : t.value i = .ok v ↔ ∃ slot, t.slots[i]? = some slot ∧ slot.content = some v := by
  rw [value_eq_ok_iff, value?_eq_ok_iff]

theorem put_eq_ok_iff {old : Option Value} : t.put i v = .ok (old, t') ↔
    ∃ slot, t.slots[i]? = some slot ∧ v.type = slot.parameter.type ∧ slot.content = old ∧
      t.replace i (some v) = t' := by
  simp only [put, bind_eq_ok_iff, elementAt_eq_ok_iff]
  refine exists_congr fun slot => and_congr_right fun _ => ?_
  split <;> simp [*]

theorem getElem?_put_of_ne {old : Option Value} (h : t.put i v = .ok (old, t')) (hij : i ≠ j) :
    t'.slots[j]? = t.slots[j]? := by
  obtain ⟨slot, hs, -, -, rfl⟩ := put_eq_ok_iff.mp h
  rw [replace_getElem?, if_neg hij]

/-- After a value has been stored, its element holds it, and it is of the element's type. -/
theorem getElem?_put {old : Option Value} (h : t.put i v = .ok (old, t')) :
    ∃ slot, t'.slots[i]? = some slot ∧ slot.content = some v ∧ v.type = slot.parameter.type := by
  obtain ⟨slot, hs, ht, -, rfl⟩ := put_eq_ok_iff.mp h
  refine ⟨{ slot with content := some v }, ?_, rfl, ht⟩
  rw [replace_getElem?, if_pos rfl, hs]
  rfl

theorem isFilled_put {old : Option Value} (h : t.put i v = .ok (old, t')) : t'.isFilled i = .ok true := by
  obtain ⟨slot, hs, hc, -⟩ := getElem?_put h
  exact isFilled_eq_ok_iff.mpr ⟨some v, value?_eq_ok_iff.mpr ⟨slot, hs, hc⟩, rfl⟩

theorem isFilled_put_of_ne {old : Option Value} (h : t.put i v = .ok (old, t')) (hij : i ≠ j) :
    t'.isFilled j = t.isFilled j := by
  have hsize : t'.slots.size = t.slots.size := by
    obtain ⟨-, -, -, -, rfl⟩ := put_eq_ok_iff.mp h
    simp [replace]
  rw [isFilled, isFilled, value?, value?, elementAt, elementAt, getElem?_put_of_ne h hij, hsize]

theorem isFilled_put_of_isFilled {old : Option Value} (h : t.put i v = .ok (old, t'))
    (hj : t.isFilled j = .ok true) : t'.isFilled j = .ok true := by
  by_cases hij : i = j
  · exact hij ▸ isFilled_put h
  · rw [isFilled_put_of_ne h hij, hj]

theorem put_of_stored {slot : Slot} (hs : t.slots[i]? = some slot) (hc : slot.content = some v)
    (ht : v.type = slot.parameter.type) : t.put i v = .ok (some v, t) := by
  refine put_eq_ok_iff.mpr ⟨slot, hs, ht, hc, ?_⟩
  have hslots : (t.replace i (some v)).slots = t.slots := by
    apply Array.ext_getElem?
    intro k
    rw [replace_getElem?]
    split
    · subst k
      simp [hs, ← hc]
    · rfl
  cases t
  simpa [replace] using hslots

/-- The tuple has a layout, and the values in it have the types for that. -/
structure Fits (t : Tuple) (layout : Array Parameter) : Prop where
  layout : t.layout = layout
  typed : ∀ slot ∈ t.slots.toList, ∀ v, slot.content = some v → v.type = slot.parameter.type

theorem fits_new (layout : Array Parameter) : (new layout).Fits layout := by
  refine ⟨by simp [Tuple.layout, new, Function.comp_def], fun slot hs v hv => ?_⟩
  simp only [new, Array.toList_map, List.mem_map] at hs
  obtain ⟨p, -, rfl⟩ := hs
  cases hv

theorem getElem?_contents (t : Tuple) (i : Nat) : t.contents[i]? = t.slots[i]?.map Slot.content := by
  rw [contents, List.getElem?_map, Array.getElem?_toList]

@[simp] theorem length_contents (t : Tuple) : t.contents.length = t.size := by
  simp [contents, size]

theorem contents_replace (t : Tuple) (i : Nat) (content : Option Value) :
    (t.replace i content).contents = t.contents.set i content := by
  refine List.ext_getElem? fun j => ?_
  rw [getElem?_contents, replace_getElem?, List.getElem?_set', getElem?_contents]
  split
  · rename_i hij
    subst hij
    cases t.slots[i]? <;> rfl
  · rfl

theorem contents_clear (t : Tuple) : t.clear.contents = t.contents.map fun _ => none := by
  simp [contents, clear]

theorem length_values (t : Tuple) : t.values.length = t.filledCount := by
  rw [values, List.length_filterMap_eq_countP, contents, List.countP_map, filledCount, ← Array.countP_toList]
  rfl

theorem fst_destroyAll (t : Tuple) : t.destroyAll.1 = t.filledCount := by
  have hcount (slots : List Slot) (n : Nat) :
      slots.foldl (fun destroyed slot => if slot.content.isSome then destroyed + 1 else destroyed) n =
        n + slots.countP fun slot => slot.content.isSome := by
    induction slots generalizing n with
    | nil => rfl
    | cons slot slots ih =>
        rw [List.foldl_cons, List.countP_cons, ih]
        cases slot.content with
        | none => rfl
        | some v => exact Nat.add_right_comm n 1 _
  rw [destroyAll, ← Array.foldl_toList, hcount, Nat.zero_add, filledCount, Array.countP_toList]

theorem allFilled_iff : t.allFilled = true ↔ none ∉ t.contents := by
  rw [allFilled, Array.all_eq_true_iff_forall_mem]
  simp [contents, Option.isSome_iff_ne_none]

@[simp] theorem clear_clear (t : Tuple) : t.clear.clear = t.clear := by
  simp [clear]

theorem intoValues_eq_ok_iff {vs : List Value} : t.intoValues = .ok vs ↔ t.contents = vs.map some := by
  rw [intoValues, mapM_eq_ok_iff, forall₂_iff_getElem?, List.length_range]
  refine ⟨fun ⟨hlength, hvalue⟩ => ?_, fun h => ?_⟩
  · refine List.ext_getElem? fun i => ?_
    by_cases hi : i < t.size
    · obtain ⟨v, hv, hvalue⟩ := hvalue (List.getElem?_range hi)
      obtain ⟨slot, hs, hc⟩ := value_eq_ok_iff_slot.mp hvalue
      rw [getElem?_contents, hs, List.getElem?_map, hv, Option.map_some, hc, Option.map_some]
    · rw [List.getElem?_eq_none (by simpa using hi), List.getElem?_eq_none (by simpa [← hlength] using hi)]
  · have hlength : t.size = vs.length := by rw [← length_contents, h, List.length_map]
    refine ⟨hlength, fun {i j} hj => ?_⟩
    obtain ⟨hlt, rfl⟩ := List.getElem?_eq_some_iff.mp hj
    rw [List.length_range] at hlt
    rw [List.getElem_range]
    have hi := getElem?_contents t i
    rw [h, List.getElem?_map, List.getElem?_eq_getElem (hlength ▸ hlt)] at hi
    obtain ⟨slot, hs, hc⟩ := Option.map_eq_some_iff.mp hi.symm
    exact ⟨_, List.getElem?_eq_getElem (hlength ▸ hlt), value_eq_ok_iff_slot.mpr ⟨slot, hs, hc⟩⟩

/-! ## Full tuples -/

/-- The tuple of a layout with a value in every element. -/
def filled (layout : Array Parameter) (vs : List Value) : Tuple :=
  ⟨(layout.toList.zipWith (fun p v => ⟨p, some v⟩) vs).toArray⟩

section

variable {pre rest : List Slot} {p : Parameter}

theorem isFilled_next (pre rest : List Slot) (p : Parameter) :
    isFilled ⟨(pre ++ ⟨p, none⟩ :: rest).toArray⟩ pre.length = .ok false := by
  rw [isFilled_eq_ok_iff]
  exact ⟨none, value?_eq_ok_iff.mpr ⟨⟨p, none⟩, by simp, rfl⟩, rfl⟩

theorem put_next (h : v.type = p.type) : put ⟨(pre ++ ⟨p, none⟩ :: rest).toArray⟩ pre.length v =
    .ok (none, ⟨(pre ++ ⟨p, some v⟩ :: rest).toArray⟩) := by
  refine put_eq_ok_iff.mpr ⟨⟨p, none⟩, by simp, h, rfl, ?_⟩
  rw [replace, Tuple.mk.injEq, List.modify_toArray]
  congr 1
  induction pre with
  | nil => simp
  | cons slot pre ih => simpa using ih

end

variable {layout : Array Parameter} {vs : List Value}

theorem contents_filled (h : vs.length = layout.size) : (filled layout vs).contents = vs.map some := by
  simp only [contents, filled, List.map_zipWith]
  rw [← Array.length_toList] at h
  generalize layout.toList = ps at h
  induction ps generalizing vs with
  | nil => rw [List.length_eq_zero_iff.mp h, List.zipWith_nil_left, List.map_nil]
  | cons p ps ih =>
      cases vs with
      | nil => cases h
      | cons v vs => rw [List.zipWith_cons_cons, ih (Nat.succ.inj h), List.map_cons]

theorem clear_filled (h : vs.length = layout.size) : (filled layout vs).clear = new layout := by
  have hslots : (layout.toList.zipWith (fun p v => (⟨p, some v⟩ : Slot)) vs).map
      (fun slot => { slot with content := none }) = layout.toList.map fun p => ⟨p, none⟩ := by
    rw [← Array.length_toList] at h
    generalize layout.toList = ps at h
    induction ps generalizing vs with
    | nil => rw [List.length_eq_zero_iff.mp h, List.zipWith_nil_left, List.map_nil, List.map_nil]
    | cons p ps ih =>
        cases vs with
        | nil => cases h
        | cons v vs => rw [List.zipWith_cons_cons, List.map_cons, ih (Nat.succ.inj h), List.map_cons]
  simp only [clear, filled, new, List.map_toArray, hslots]
  rw [← List.map_toArray, Array.toArray_toList]

theorem allFilled_filled (layout : Array Parameter) (vs : List Value) : (filled layout vs).allFilled := by
  simp only [allFilled, filled, List.all_toArray, List.all_eq_true, List.mem_iff_getElem?,
    List.getElem?_zipWith]
  rintro slot ⟨i, hi⟩
  split at hi
  · cases hi
    rfl
  · cases hi

end Nodeflow.Tuple
