import Nodeflow.Proofs.Generation.Execution
import Nodeflow.Proofs.Value.Reading

/-!
# Inputs given as text

What is read from a text is a value of the type that was asked for, so an input that is read is stored.
-/

namespace Nodeflow

namespace Package

theorem run_foldlM_readInput (pre : List Slot) {parameters : List Parameter} {texts : List String} {vs : List Value}
    (hlen : texts.length = parameters.length)
    (h : List.Forall₂ (fun (entry : Parameter × String) v => entry.1.type.parse entry.2 = .ok v) (parameters.zip texts) vs) :
    (((parameters.zip texts).zipIdx pre.length).foldlM readInput
      ⟨(pre ++ parameters.map fun q => Slot.mk q none).toArray⟩).run =
        .ok (.ok ⟨(pre ++ parameters.zipWith (fun q v => Slot.mk q (some v)) vs).toArray⟩) := by
  induction parameters generalizing pre texts vs with
  | nil =>
      cases h
      rfl
  | cons q parameters ih =>
      cases texts with
      | nil => cases hlen
      | cons text texts =>
          obtain ⟨v, vs, hv, hvs, rfl⟩ := List.forall₂_cons_left_iff.mp h
          have hread : (readInput ⟨(pre ++ ⟨q, none⟩ :: parameters.map fun q => Slot.mk q none).toArray⟩
              ((q, text), pre.length)).run =
                .ok (.ok ⟨(pre ++ ⟨q, some v⟩ :: parameters.map fun q => Slot.mk q none).toArray⟩) := by
            simp only [readInput, hv]
            rw [Tuple.put_next (ValueType.type_of_parse hv)]
            rfl
          have hrest := ih (pre ++ [⟨q, some v⟩]) (Nat.succ.inj hlen) hvs
          simp only [List.length_append, List.length_singleton, List.append_assoc, List.singleton_append] at hrest
          rw [List.zip_cons_cons, List.zipIdx_cons, List.foldlM_cons, ExceptT.run_bind, List.map_cons, hread]
          exact hrest

theorem run_readInputs {layout : Array Parameter} {texts : List String} {vs : List Value}
    (hlen : texts.length = layout.size)
    (h : List.Forall₂ (fun (entry : Parameter × String) v => entry.1.type.parse entry.2 = .ok v)
      (layout.toList.zip texts) vs) :
    (readInputs (layout.toList.zip texts) (Tuple.new layout)).run = .ok (.ok (Tuple.filled layout vs)) := by
  have hnew : Tuple.new layout = ⟨([] ++ layout.toList.map fun q => Slot.mk q none).toArray⟩ := by
    rw [Tuple.new, List.nil_append, ← List.map_toArray, Array.toArray_toList]
  rw [readInputs_eq, hnew]
  exact run_foldlM_readInput [] (by rwa [Array.length_toList]) h

end Package

open Literal ValueType in
/-- Texts of float literals are read as their numbers, other texts of lists, vectors and colours are refused, and a
value that is read is of the type asked for, so that it can be stored for the call. -/
theorem texts_are_read_or_refused :
    (∀ (parts : List (List Char)) (xs : List Binary32) (text : String), List.Forall₂ Shows parts xs →
      Text.Pads ([','].intercalate parts) text.toList →
      floatList.parse text = .ok (.floatList xs) ∧
        (∀ x y z, xs = [x, y, z] → vector3.parse text = .ok (.vector3 x y z)) ∧
        (xs.length ≠ 3 → vector3.parse text = .error (vector3.invalid text)) ∧
        (∀ r g b a, xs = [r, g, b, a] → color.parse text = .ok (.color r g b a)) ∧
        (xs.length ≠ 4 → color.parse text = .error (color.invalid text))) ∧
    (∀ (text : String) (part : List Char), part ∈ text.toList.splitOn ',' → (∀ x, ¬Shows part x) →
      ∀ type ∈ [floatList, vector3, color], type.parse text =
        if type = floatList ∧ text.toList.all Text.isBlank then .ok (.floatList [])
        else .error (type.invalid text)) ∧
    (∀ (type : ValueType) (text : String) (v : Value), type.parse text = .ok v → v.type = type) ∧
    ∀ (layout : Array Parameter) (texts : List String), texts.length = layout.size →
      ∃ result, (Package.readInputs (layout.toList.zip texts) (Tuple.new layout)).run = .ok result ∧
        ∀ vs, List.Forall₂ (fun (entry : Parameter × String) v => entry.1.type.parse entry.2 = .ok v)
          (layout.toList.zip texts) vs → result = .ok (Tuple.filled layout vs) := by
  refine ⟨fun _ _ _ => parse_of_shows, fun _ _ hpart hnone _ => parse_of_not_shows hpart hnone,
    fun _ _ _ => type_of_parse, fun layout texts hlen => ?_⟩
  obtain ⟨result, hresult⟩ := (Package.settles_readInputs hlen).exists_run
  refine ⟨result, hresult, fun vs hvs => ?_⟩
  exact Except.ok.inj (hresult.symm.trans (Package.run_readInputs hlen hvs))

open Literal ValueType in
/-- Three literals make a vector, with the blanks that stand around them; a text with an empty part makes nothing. -/
theorem texts_are_read_or_refused_literals :
    List.Forall₂ Shows [" 1 ".toList, "\t-2.5e1".toList, " inf\n".toList]
      [.one, .number true 1103626240, .number false .infinity] ∧
    vector3.parse " 1 ,\t-2.5e1, inf\n" = .ok (.vector3 .one (.number true 1103626240) (.number false .infinity)) ∧
    color.parse " 1 ,\t-2.5e1, inf\n" = .error (color.invalid " 1 ,\t-2.5e1, inf\n") ∧
    [] ∈ "1,,2".toList.splitOn ',' ∧ floatList.parse "1,,2" = .error (floatList.invalid "1,,2") ∧
    ∃ input, (Package.readInputs [(⟨"x", .vector3⟩, " 1 ,\t-2.5e1, inf\n")] (Tuple.new #[⟨"x", .vector3⟩])).run =
      .ok (.ok input) := by
  obtain ⟨hread, hrefused, -, hstored⟩ := texts_are_read_or_refused
  have hshows : List.Forall₂ Shows [" 1 ".toList, "\t-2.5e1".toList, " inf\n".toList]
      [.one, .number true 1103626240, .number false .infinity] := by
    simp only [List.forall₂_cons, shows_iff, List.Forall₂.nil, and_true]
    decide +kernel
  obtain ⟨-, hvector, -, -, hcolor⟩ := hread _ _ " 1 ,\t-2.5e1, inf\n" hshows ⟨[], [], by simp, by simp, by decide⟩
  have hempty : ∀ x, ¬Shows [] x := fun x => not_shows_of_isBlank (by simp)
  have hmem : [] ∈ "1,,2".toList.splitOn ',' := by decide
  have hbad := hrefused "1,,2" [] hmem hempty floatList (by simp)
  obtain ⟨result, hresult, hvalues⟩ := hstored #[⟨"x", .vector3⟩] [" 1 ,\t-2.5e1, inf\n"] rfl
  refine ⟨hshows, hvector _ _ _ rfl, hcolor (by decide), hmem, hbad.trans (if_neg (by decide)), ?_⟩
  exact ⟨_, hresult.trans (congrArg Except.ok (hvalues _ (.cons (hvector _ _ _ rfl) .nil)))⟩

end Nodeflow
