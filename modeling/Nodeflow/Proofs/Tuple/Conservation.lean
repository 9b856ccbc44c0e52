import Nodeflow.Tuple.Exchange
import Nodeflow.Proofs.Tuple

/-!
# No value is lost

What an operation on a tuple does with values depends on their types at most, so it is a move of
whatever stands for them. A ledger lets the same moves act on the numbers of the values, in the order
in which they came: each number is in one element, has been handed back once, or has been destroyed
once, and the values of the numbers are those that the operations move.
-/

namespace Nodeflow.Tuple

/-! ## Moves -/

section

variable {α β : Type} {row : List (Option α)} {fresh : List α} {i : Nat}

/-- What is in the elements after a step, and what has left them or never came into them. -/
structure Moved (α : Type) where
  row : List (Option α)
  returned : List α := []
  destroyed : List α := []

def Moved.all (moved : Moved α) : List α := moved.row.filterMap id ++ (moved.returned ++ moved.destroyed)

def Moved.map (f : α → β) (moved : Moved α) : Moved β :=
  ⟨moved.row.map (Option.map f), moved.returned.map f, moved.destroyed.map f⟩

/-- What happens to the values in the elements and to those that come. -/
inductive Move where
  | store (i : Nat)
  | refuse
  | handBack (i : Nat)
  | destroy (i : Nat)
  | fill
  | handBackAll
  | destroyAll
  | stay

/-- The row with its gaps filled, from the left. -/
def fillGaps : List (Option α) → List α → List (Option α)
  | [], _ => []
  | some x :: row, fresh => some x :: fillGaps row fresh
  | none :: row, [] => none :: fillGaps row []
  | none :: row, x :: fresh => some x :: fillGaps row fresh

/-- What is in one element, if anything. -/
def inElement (row : List (Option α)) (i : Nat) : List α := row[i]?.join.toList

def Move.apply (row : List (Option α)) (fresh : List α) : Move → Moved α
  | store i => { row := row.set i fresh.head?, destroyed := inElement row i }
  | refuse => { row, destroyed := fresh }
  | handBack i => { row := row.set i none, returned := inElement row i }
  | destroy i => { row := row.set i none, destroyed := inElement row i }
  | fill => { row := fillGaps row fresh }
  | handBackAll => { row := row.map fun _ => none, returned := row.filterMap id }
  | destroyAll => { row := row.map fun _ => none, destroyed := row.filterMap id }
  | stay => { row }

/-- There is a place for each value that comes. -/
def Move.Suits (row : List (Option α)) (fresh : List α) : Move → Prop
  | store i => i < row.length ∧ fresh.length = 1
  | refuse => True
  | handBack i | destroy i => i < row.length ∧ fresh.length = 0
  | fill => fresh.length = row.countP Option.isNone
  | handBackAll | destroyAll | stay => fresh.length = 0

theorem filterMap_cons_eq (content : Option α) (row : List (Option α)) :
    (content :: row).filterMap id = content.toList ++ row.filterMap id := by
  cases content <;> rfl

theorem filterMap_set_perm (hi : i < row.length) (content : Option α) :
    ((row.set i content).filterMap id ++ inElement row i).Perm (row.filterMap id ++ content.toList) := by
  induction row generalizing i with
  | nil => cases hi
  | cons old row ih =>
      cases i with
      | zero =>
          rw [List.set_cons_zero, filterMap_cons_eq, filterMap_cons_eq, List.append_assoc]
          calc (content.toList ++ (row.filterMap id ++ old.toList)).Perm (row.filterMap id ++ old.toList ++ content.toList) :=
                List.perm_append_comm
            _ |>.Perm (old.toList ++ row.filterMap id ++ content.toList) := List.perm_append_comm.append_right _
      | succ i =>
          rw [List.set_cons_succ, filterMap_cons_eq, filterMap_cons_eq, List.append_assoc, List.append_assoc]
          exact (ih (Nat.lt_of_succ_lt_succ hi)).append_left old.toList

theorem filterMap_fillGaps_perm (h : fresh.length = row.countP Option.isNone) :
    ((fillGaps row fresh).filterMap id).Perm (row.filterMap id ++ fresh) := by
  induction row generalizing fresh with
  | nil => simp [List.length_eq_zero_iff.mp h, fillGaps]
  | cons content row ih =>
      cases content with
      | some x => simpa [fillGaps] using ih (by simpa using h)
      | none =>
          cases fresh with
          | nil => simp at h
          | cons y fresh =>
              have hrest : (fillGaps row fresh).filterMap id |>.Perm (row.filterMap id ++ fresh) := ih (by simpa using h)
              simpa [fillGaps] using (hrest.cons y).trans List.perm_middle.symm

/-- A move neither loses nor duplicates anything. -/
theorem Move.all_apply_perm {m : Move} (h : m.Suits row fresh) :
    (m.apply row fresh).all.Perm (row.filterMap id ++ fresh) := by
  have hnone : (row.map fun _ => (none : Option α)).filterMap id = [] := by simp [List.filterMap_map]
  cases m with
  | store i =>
      obtain ⟨x, rfl⟩ := List.length_eq_one_iff.mp h.2
      exact filterMap_set_perm h.1 (some x)
  | refuse => exact .refl _
  | handBack i =>
      rw [apply, Moved.all, List.append_nil, List.length_eq_zero_iff.mp h.2]
      exact filterMap_set_perm h.1 none
  | destroy i =>
      rw [apply, Moved.all, List.nil_append, List.length_eq_zero_iff.mp h.2]
      exact filterMap_set_perm h.1 none
  | fill =>
      rw [apply, Moved.all, List.append_nil, List.append_nil]
      exact filterMap_fillGaps_perm h
  | handBackAll =>
      rw [apply, Moved.all, hnone, List.length_eq_zero_iff.mp h, List.nil_append]
  | destroyAll =>
      rw [apply, Moved.all, hnone, List.length_eq_zero_iff.mp h, List.nil_append, List.nil_append, List.append_nil]
  | stay =>
      rw [apply, Moved.all, List.length_eq_zero_iff.mp h, List.append_nil]

/-! Moves are the same for whatever stands for the values. -/

theorem inElement_map (f : α → β) (row : List (Option α)) (i : Nat) :
    inElement (row.map (Option.map f)) i = (inElement row i).map f := by
  rw [inElement, inElement, List.getElem?_map]
  rcases row[i]? with - | - | x <;> rfl

theorem fillGaps_map (f : α → β) (row : List (Option α)) (fresh : List α) :
    fillGaps (row.map (Option.map f)) (fresh.map f) = (fillGaps row fresh).map (Option.map f) := by
  fun_induction fillGaps row fresh <;> simp_all [fillGaps]

theorem filterMap_map_eq (f : α → β) (row : List (Option α)) :
    (row.map (Option.map f)).filterMap id = (row.filterMap id).map f := by
  induction row with
  | nil => rfl
  | cons content row ih =>
      rw [List.map_cons, filterMap_cons_eq, filterMap_cons_eq, List.map_append, ih]
      cases content <;> rfl

theorem Move.apply_map (f : α → β) (m : Move) (row : List (Option α)) (fresh : List α) :
    m.apply (row.map (Option.map f)) (fresh.map f) = (m.apply row fresh).map f := by
  cases m with
  | store i =>
      simp only [apply, Moved.map, inElement_map, List.map_set, List.head?_map, List.map_nil]
  | refuse | stay => rfl
  | handBack i | destroy i => simp [apply, Moved.map, inElement_map, List.map_set]
  | fill => simp [apply, Moved.map, fillGaps_map]
  | handBackAll | destroyAll =>
      simp only [apply, Moved.map, filterMap_map_eq, List.map_map, List.map_nil]
      rfl

theorem Move.suits_map (f : α → β) {m : Move} :
    m.Suits (row.map (Option.map f)) (fresh.map f) ↔ m.Suits row fresh := by
  have hgaps : (row.map (Option.map f)).countP Option.isNone = row.countP Option.isNone := by
    rw [List.countP_map]
    exact List.countP_congr fun content _ => by simp
  cases m <;> simp only [Suits, List.length_map, hgaps]

end

/-! ## Operations as moves -/

variable {t t' : Tuple} {layout : Array Parameter} {op : Operation} {i : Nat} {v : Value} {vs : List Value}

/-- The default values of the empty elements. -/
def missing (t : Tuple) : List Value :=
  (t.slots.toList.filter fun slot => slot.content.isNone).map fun slot => slot.parameter.type.default

/-- The values that come to a tuple with an operation. -/
def Operation.supplied (t : Tuple) : Operation → List Value
  | put _ v | copy _ v => [v]
  | fillDefaults => t.missing
  | take _ | takeAs .. | clear | intoValues => []

def Operation.move (t : Tuple) : Operation → Move
  | put i v | copy i v =>
    match t.put i v with
    | .ok _ => .store i
    | .error _ => .refuse
  | take i =>
    match t.value i with
    | .ok _ => .handBack i
    | .error _ => .stay
  | takeAs i type =>
    match t.value i with
    | .ok v => if v.type = type then .handBack i else .destroy i
    | .error _ => .stay
  | fillDefaults => .fill
  | clear => .destroyAll
  | intoValues =>
    match t.intoValues with
    | .ok _ => .handBackAll
    | .error _ => .destroyAll

/-- What an operation comes to: the move of the values and the exchange with the caller. -/
inductive Operation.ComesTo (t : Tuple) : Operation → Move → Exchange → Prop where
  | stored {op : Operation} {i : Nat} {v : Value} {slot : Slot} (hop : op = put i v ∨ op = copy i v)
      (hs : t.slots[i]? = some slot) (htype : v.type = slot.parameter.type) :
      op.ComesTo t (.store i) { result := .ok [], destroyed := slot.content.toList, tuple := t.replace i (some v) }
  | refused {op : Operation} {i : Nat} {v : Value} {fault : Fault} (hop : op = put i v ∨ op = copy i v)
      (hno : ∀ slot, t.slots[i]? = some slot → v.type ≠ slot.parameter.type) :
      op.ComesTo t .refuse { result := .error fault, destroyed := [v], tuple := t }
  | taken {op : Operation} {i : Nat} {v : Value} {slot : Slot} (hop : op = take i ∨ op = takeAs i v.type)
      (hs : t.slots[i]? = some slot) (hc : slot.content = some v) :
      op.ComesTo t (.handBack i) { result := .ok [v], tuple := t.replace i none }
  | mistaken {i : Nat} {type : ValueType} {v : Value} {slot : Slot} {fault : Fault}
      (hs : t.slots[i]? = some slot) (hc : slot.content = some v) (htype : v.type ≠ type) :
      (takeAs i type).ComesTo t (.destroy i)
        { result := .error fault, destroyed := [v], tuple := t.replace i none }
  | missed {op : Operation} {i : Nat} {fault : Fault} (hop : op = take i ∨ ∃ type, op = takeAs i type)
      (hno : ∀ slot, t.slots[i]? = some slot → slot.content = none) :
      op.ComesTo t .stay { result := .error fault, tuple := t }
  | filled : fillDefaults.ComesTo t .fill { result := .ok [], tuple := t.fillDefaults }
  | cleared : clear.ComesTo t .destroyAll
      { result := .ok [], count := some t.values.length, destroyed := t.values, tuple := t.clear }
  | unpacked (hfull : none ∉ t.contents) :
      intoValues.ComesTo t .handBackAll { result := .ok t.values, tuple := t.clear }
  | unpackable {fault : Fault} (hgap : none ∈ t.contents) :
      intoValues.ComesTo t .destroyAll { result := .error fault, destroyed := t.values, tuple := t.clear }

theorem contents_fillDefaults (t : Tuple) : t.fillDefaults.contents = fillGaps t.contents t.missing := by
  simp only [contents, fillDefaults, missing, Array.toList_map]
  induction t.slots.toList with
  | nil => rfl
  | cons slot slots ih => cases hc : slot.content <;> simp_all [fillGaps]

theorem countP_contents (t : Tuple) : t.contents.countP Option.isNone = t.missing.length := by
  rw [contents, missing, List.countP_map, List.length_map, ← List.countP_eq_length_filter]
  rfl

theorem inElement_contents {slot : Slot} (hs : t.slots[i]? = some slot) : inElement t.contents i = slot.content.toList := by
  rw [inElement, getElem?_contents, hs]
  rfl

theorem lt_length_contents {slot : Slot} (hs : t.slots[i]? = some slot) : i < t.contents.length := by
  rw [length_contents]
  exact (Array.getElem?_eq_some_iff.mp hs).1

theorem content_eq_none_of_value {fault : Fault} (h : t.value i = .error fault) {slot : Slot}
    (hs : t.slots[i]? = some slot) : slot.content = none := by
  cases hc : slot.content with
  | none => rfl
  | some v =>
      have hv := value_eq_ok_iff_slot.mpr ⟨slot, hs, hc⟩
      rw [h] at hv
      cases hv

theorem take_eq (t : Tuple) (i : Nat) : t.take i = (t.value i).map fun v => (v, t.replace i none) := rfl

theorem map_some_filterMap {α : Type} {row : List (Option α)} (h : none ∉ row) :
    (row.filterMap id).map some = row := by
  induction row with
  | nil => rfl
  | cons content row ih =>
      rw [List.mem_cons, not_or] at h
      obtain ⟨x, rfl⟩ := Option.ne_none_iff_exists'.mp (Ne.symm h.1)
      rw [filterMap_cons_eq, List.map_append, ih h.2]
      rfl

theorem Operation.comesTo_take (t : Tuple) (i : Nat) : (take i).ComesTo t ((take i).move t) ((take i).run t) := by
  cases h : t.value i with
  | error fault =>
      simp only [move, run, take_eq, h]
      exact .missed (.inl rfl) fun slot => content_eq_none_of_value h
  | ok v =>
      obtain ⟨slot, hs, hc⟩ := value_eq_ok_iff_slot.mp h
      simp only [move, run, take_eq, h]
      exact .taken (.inl rfl) hs hc

theorem Operation.comesTo_takeAs (t : Tuple) (i : Nat) (type : ValueType) :
    (takeAs i type).ComesTo t ((takeAs i type).move t) ((takeAs i type).run t) := by
  cases h : t.value i with
  | error fault =>
      simp only [move, run, take_eq, h]
      exact .missed (.inr ⟨type, rfl⟩) fun slot => content_eq_none_of_value h
  | ok v =>
      obtain ⟨slot, hs, hc⟩ := value_eq_ok_iff_slot.mp h
      simp only [move, run, take_eq, h, Except.map]
      split
      · rename_i htype
        subst htype
        exact .taken (.inr rfl) hs hc
      · exact .mistaken hs hc ‹_›

theorem Operation.comesTo_store {op : Operation} (hop : op = put i v ∨ op = copy i v) :
    op.ComesTo t (op.move t) (op.run t) := by
  have hmove : op.move t = (put i v).move t := by rcases hop with rfl | rfl <;> rfl
  have hrun : op.run t = (put i v).run t := by rcases hop with rfl | rfl <;> rfl
  rw [hmove, hrun, move, run]
  cases h : t.put i v with
  | error fault =>
      refine .refused hop fun slot hs htype => ?_
      have hput := put_eq_ok_iff.mpr ⟨slot, hs, htype, rfl, rfl⟩
      rw [h] at hput
      cases hput
  | ok result =>
      obtain ⟨old, t'⟩ := result
      obtain ⟨slot, hs, htype, rfl, rfl⟩ := put_eq_ok_iff.mp h
      exact .stored hop hs htype

theorem Operation.comesTo_intoValues (t : Tuple) :
    intoValues.ComesTo t (intoValues.move t) (intoValues.run t) := by
  rw [move, run]
  cases h : t.intoValues with
  | error fault =>
      refine .unpackable (Classical.byContradiction fun hfull => ?_)
      have hvs := intoValues_eq_ok_iff.mpr (map_some_filterMap hfull).symm
      rw [h] at hvs
      cases hvs
  | ok vs =>
      have hvs := intoValues_eq_ok_iff.mp h
      have hvalues : t.values = vs := by simp [values, hvs]
      rw [← hvalues]
      exact .unpacked (by simp [hvs])

theorem Operation.comesTo_clear (t : Tuple) : clear.ComesTo t (clear.move t) (clear.run t) := by
  have hrun : clear.run t =
      { result := .ok [], count := some t.values.length, destroyed := t.values, tuple := t.clear } := by
    rw [length_values, ← fst_destroyAll]
    rfl
  rw [hrun]
  exact .cleared

theorem Operation.comesTo (t : Tuple) (op : Operation) : op.ComesTo t (op.move t) (op.run t) := by
  cases op with
  | put i v => exact comesTo_store (.inl rfl)
  | copy i v => exact comesTo_store (.inr rfl)
  | take i => exact comesTo_take t i
  | takeAs i type => exact comesTo_takeAs t i type
  | fillDefaults => exact .filled
  | clear => exact comesTo_clear t
  | intoValues => exact comesTo_intoValues t

/-- The row after an exchange, and what leaves with it. -/
def Exchange.moved (x : Exchange) : Moved Value := ⟨x.tuple.contents, x.returned, x.destroyed⟩

/-- An operation moves values as it says, and it does nothing else with them. -/
theorem Operation.ComesTo.apply_eq {m : Move} {x : Exchange} (h : op.ComesTo t m x) :
    m.Suits t.contents (op.supplied t) ∧ m.apply t.contents (op.supplied t) = x.moved := by
  cases h with
  | stored hop hs htype =>
      refine ⟨⟨lt_length_contents hs, ?_⟩, ?_⟩
      · rcases hop with rfl | rfl <;> rfl
      · rw [Exchange.moved, contents_replace, Move.apply, inElement_contents hs]
        rcases hop with rfl | rfl <;> rfl
  | refused hop hno => rcases hop with rfl | rfl <;> exact ⟨trivial, rfl⟩
  | taken hop hs hc =>
      rw [Exchange.moved, contents_replace, Move.apply, inElement_contents hs, hc]
      rcases hop with rfl | rfl <;> exact ⟨⟨lt_length_contents hs, rfl⟩, rfl⟩
  | mistaken hs hc htype =>
      rw [Exchange.moved, contents_replace, Move.apply, inElement_contents hs, hc]
      exact ⟨⟨lt_length_contents hs, rfl⟩, rfl⟩
  | missed hop hno => rcases hop with rfl | ⟨type, rfl⟩ <;> exact ⟨rfl, rfl⟩
  | filled =>
      rw [Exchange.moved, contents_fillDefaults]
      exact ⟨(countP_contents t).symm, rfl⟩
  | cleared | unpacked hfull | unpackable hgap =>
      rw [Exchange.moved, contents_clear]
      exact ⟨rfl, rfl⟩

/-! ## Types -/

theorem Fits.replace (h : t.Fits layout) {content : Option Value}
    (htyped : ∀ slot, t.slots[i]? = some slot → ∀ v, content = some v → v.type = slot.parameter.type) :
    (t.replace i content).Fits layout := by
  refine ⟨?_, fun slot hslot => ?_⟩
  · rw [← h.layout]
    refine Array.ext_getElem? fun j => ?_
    rw [Tuple.layout, Tuple.layout, Array.getElem?_map, Array.getElem?_map, replace_getElem?]
    split
    · cases t.slots[j]? <;> rfl
    · rfl
  · obtain ⟨j, hj⟩ := List.mem_iff_getElem?.mp hslot
    rw [Array.getElem?_toList, replace_getElem?] at hj
    split at hj
    · rename_i hij
      subst hij
      obtain ⟨old, hold, rfl⟩ := Option.map_eq_some_iff.mp hj
      exact htyped old hold
    · exact h.typed slot (Array.mem_toList_iff.mpr (Array.mem_of_getElem? hj))

theorem Fits.clear (h : t.Fits layout) : t.clear.Fits layout := by
  refine ⟨by rw [← h.layout]; simp [Tuple.layout, Tuple.clear, Function.comp_def], fun slot hslot v hv => ?_⟩
  rw [Tuple.clear, Array.toList_map] at hslot
  obtain ⟨old, -, rfl⟩ := List.mem_map.mp hslot
  cases hv

theorem Fits.fillDefaults (h : t.Fits layout) : t.fillDefaults.Fits layout := by
  refine ⟨by rw [← h.layout]; simp [Tuple.layout, Tuple.fillDefaults, Function.comp_def], fun slot hslot v hv => ?_⟩
  rw [Tuple.fillDefaults, Array.toList_map] at hslot
  obtain ⟨old, hold, rfl⟩ := List.mem_map.mp hslot
  cases hv
  cases hc : old.content with
  | none => exact ValueType.type_default _
  | some w => exact h.typed old hold w hc

theorem Fits.of_comesTo (h : t.Fits layout) {m : Move} {x : Exchange} (hx : op.ComesTo t m x) : x.tuple.Fits layout := by
  cases hx with
  | stored hop hs htype =>
      refine h.replace fun slot hslot w hw => ?_
      cases hw
      rw [htype, Option.some.inj (hs.symm.trans hslot)]
  | refused | missed => exact h
  | taken | mistaken => exact h.replace fun _ _ w hw => by cases hw
  | filled => exact h.fillDefaults
  | cleared | unpacked | unpackable => exact h.clear

/-! ## The ledger -/

/-- Where the values of a tuple are. A value is known by its number among all that have come. -/
structure Ledger where
  tuple : Tuple
  row : List (Option Nat)
  supplied : List Value := []
  returned : List Nat := []
  destroyed : List Nat := []

namespace Ledger

variable {l : Ledger}

def start (layout : Array Parameter) : Ledger where
  tuple := .new layout
  row := (new layout).contents.map fun _ => none

/-- What an operation does to the numbers of the values. -/
def moved (l : Ledger) (op : Operation) : Moved Nat :=
  (op.move l.tuple).apply l.row (List.range' l.supplied.length (op.supplied l.tuple).length)

def record (l : Ledger) (op : Operation) : Ledger where
  tuple := (op.run l.tuple).tuple
  row := (l.moved op).row
  supplied := l.supplied ++ op.supplied l.tuple
  returned := l.returned ++ (l.moved op).returned
  destroyed := l.destroyed ++ (l.moved op).destroyed

/-- The tuple has the layout, every number is in one place, and the elements hold the values of the numbers. -/
structure Balanced (l : Ledger) (layout : Array Parameter) : Prop where
  fits : l.tuple.Fits layout
  accounted : (l.row.filterMap id ++ (l.returned ++ l.destroyed)).Perm (List.range l.supplied.length)
  values : l.row.map (Option.map (l.supplied[·]?)) = l.tuple.contents.map (Option.map some)

theorem balanced_start (layout : Array Parameter) : (start layout).Balanced layout := by
  refine ⟨fits_new layout, ?_, ?_⟩
  · simp [start]
  · simp [start, contents, new, Function.comp_def]

theorem Balanced.map_row (h : l.Balanced layout) (more : List Value) :
    l.row.map (Option.map ((l.supplied ++ more)[·]?)) = l.tuple.contents.map (Option.map some) := by
  rw [← h.values]
  refine List.map_congr_left fun content hcontent => ?_
  cases content with
  | none => rfl
  | some k =>
      have hk : k ∈ List.range l.supplied.length :=
        h.accounted.subset (List.mem_append_left _ (List.mem_filterMap.mpr ⟨some k, hcontent, rfl⟩))
      rw [Option.map_some, Option.map_some, List.getElem?_append_left (List.mem_range.mp hk)]

theorem map_fresh (xs ys : List Value) : (List.range' xs.length ys.length).map ((xs ++ ys)[·]?) = ys.map some := by
  induction ys generalizing xs with
  | nil => rfl
  | cons y ys ih =>
      have hrest := ih (xs ++ [y])
      rw [List.append_assoc, List.singleton_append, List.length_append, List.length_singleton] at hrest
      rw [List.length_cons, List.range'_succ, List.map_cons, hrest, List.map_cons]
      simp

theorem Balanced.map_moved (h : l.Balanced layout) (op : Operation) :
    (l.moved op).map ((l.record op).supplied[·]?) = (op.run l.tuple).moved.map some := by
  rw [moved, ← Move.apply_map, record, h.map_row, map_fresh, Move.apply_map, (Operation.comesTo l.tuple op).apply_eq.2]

theorem Balanced.suits (h : l.Balanced layout) (op : Operation) :
    (op.move l.tuple).Suits l.row (List.range' l.supplied.length (op.supplied l.tuple).length) := by
  rw [← Move.suits_map ((l.record op).supplied[·]?), record, h.map_row, map_fresh, Move.suits_map]
  exact (Operation.comesTo l.tuple op).apply_eq.1

theorem Balanced.record (h : l.Balanced layout) (op : Operation) : (l.record op).Balanced layout := by
  refine ⟨h.fits.of_comesTo (op.comesTo l.tuple), List.perm_iff_count.mpr fun k => ?_, congrArg Moved.row (h.map_moved op)⟩
  have hmoved := (Move.all_apply_perm (h.suits op)).count_eq k
  have hold := h.accounted.count_eq k
  have hrange : List.range (l.supplied ++ op.supplied l.tuple).length = List.range l.supplied.length ++
      List.range' l.supplied.length (op.supplied l.tuple).length := by
    rw [List.length_append, List.range_eq_range', List.range_eq_range', ← List.range'_append_1 (s := 0), Nat.zero_add]
  simp only [Moved.all, List.count_append] at hmoved hold
  simp only [Ledger.record, moved, hrange, List.count_append]
  omega

theorem balanced_foldl (h : l.Balanced layout) (ops : List Operation) : (ops.foldl record l).Balanced layout := by
  induction ops generalizing l with
  | nil => exact h
  | cons op ops ih => exact ih (h.record op)

theorem tuple_foldl (l : Ledger) (ops : List Operation) :
    (ops.foldl record l).tuple = ops.foldl (fun t op => (op.run t).tuple) l.tuple := by
  induction ops generalizing l with
  | nil => rfl
  | cons op ops ih => exact ih (l.record op)

/-- What a ledger tells about its tuple, and about each operation that may come next. -/
structure Accounts (l : Ledger) (layout : Array Parameter) : Prop extends l.Balanced layout where
  size : l.tuple.size = layout.size
  filledCount : l.tuple.filledCount = (l.row.filterMap id).length
  allFilled : l.tuple.allFilled = true ↔ none ∉ l.row
  comesTo : ∀ op : Operation, op.ComesTo l.tuple (op.move l.tuple) (op.run l.tuple)
  moves : ∀ op : Operation, (l.moved op).map ((l.record op).supplied[·]?) = (op.run l.tuple).moved.map some
  destroyed_clear : (Operation.clear.run l.tuple).count = some (Operation.clear.run l.tuple).destroyed.length ∧
    (Operation.clear.run l.tuple).destroyed.length = l.tuple.filledCount

theorem Balanced.accounts (h : l.Balanced layout) : l.Accounts layout := by
  have hvalues : (l.row.filterMap id).length = l.tuple.values.length := by
    have hlength := congrArg (fun row => (row.filterMap id).length) h.values
    simp only [filterMap_map_eq, List.length_map] at hlength
    exact hlength
  have hnone : none ∈ l.row ↔ none ∈ l.tuple.contents := by
    have hmem := congrArg (none ∈ ·) h.values
    simpa using hmem
  refine ⟨h, ?_, ?_, ?_, fun op => op.comesTo l.tuple, h.map_moved, ?_, length_values l.tuple⟩
  · rw [← h.fits.layout, Tuple.layout, Array.size_map, Tuple.size]
  · rw [hvalues, length_values]
  · rw [hnone, allFilled_iff]
  · exact congrArg some ((fst_destroyAll l.tuple).trans (length_values l.tuple).symm)

end Ledger

/-- The ledger of some operations on a new tuple. -/
def ledger (layout : Array Parameter) (ops : List Operation) : Ledger := ops.foldl Ledger.record (.start layout)

/-- After any operations on a tuple, refused ones among them, every value that came is in one place. -/
theorem ledger_accounts (layout : Array Parameter) (ops : List Operation) :
    (ledger layout ops).tuple = ops.foldl (fun t op => (op.run t).tuple) (new layout) ∧
      (ledger layout ops).Accounts layout :=
  ⟨Ledger.tuple_foldl _ ops, (Ledger.balanced_foldl (Ledger.balanced_start layout) ops).accounts⟩

example :
    let l := ledger #[⟨"amount", .int⟩, ⟨"label", .string⟩]
      [.put 1 (.int 5), .put 0 (.int 1), .copy 0 (.int 2), .fillDefaults, .takeAs 1 .string]
    l.row = [some 2, none] ∧ l.returned = [3] ∧ l.destroyed = [0, 1] := by
  decide +kernel

end Nodeflow.Tuple
