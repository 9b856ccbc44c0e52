import Nodeflow.Function.Dependencies
import Nodeflow.Proofs.Fault

/-!
# Attaching bodies

A body of a new kind is attached besides the bodies that are there, and is the body of its kind.
-/

namespace Nodeflow

theorem mem_insertIncreasing_iff {n i : Nat} {numbers : List Nat} :
    i ∈ insertIncreasing n numbers ↔ i = n ∨ i ∈ numbers := by
  induction numbers with
  | nil => simp [insertIncreasing]
  | cons m numbers ih =>
      rw [insertIncreasing]
      split
      · simp
      · split
        · rename_i h
          simp [h]
        · rw [List.mem_cons, ih, List.mem_cons]
          exact or_left_comm

theorem mem_increasing_iff {i : Nat} {numbers : List Nat} : i ∈ increasing numbers ↔ i ∈ numbers := by
  induction numbers with
  | nil => simp [increasing]
  | cons n numbers ih =>
      rw [increasing, List.foldr_cons, mem_insertIncreasing_iff, List.mem_cons]
      exact or_congr_right ih

theorem pairwise_insertIncreasing {n : Nat} {numbers : List Nat} (h : numbers.Pairwise (· < ·)) :
    (insertIncreasing n numbers).Pairwise (· < ·) := by
  induction numbers with
  | nil => exact List.pairwise_singleton _ _
  | cons m numbers ih =>
      have hm := List.pairwise_cons.mp h
      rw [insertIncreasing]
      split
      · rename_i hlt
        refine List.pairwise_cons.mpr ⟨fun i hi => ?_, h⟩
        rcases List.mem_cons.mp hi with rfl | hi
        · exact hlt
        · exact Nat.lt_trans hlt (hm.1 i hi)
      · split
        · exact h
        · refine List.pairwise_cons.mpr ⟨fun i hi => ?_, ih hm.2⟩
          rcases mem_insertIncreasing_iff.mp hi with rfl | hi
          · omega
          · exact hm.1 i hi

theorem pairwise_increasing (numbers : List Nat) : (increasing numbers).Pairwise (· < ·) := by
  induction numbers with
  | nil => exact .nil
  | cons n numbers ih => exact pairwise_insertIncreasing ih

namespace Function

variable {f : Function}

theorem hasBody_compiled (h : f.compiled? = none) : f.hasBody .compiled = false := by
  rw [hasBody, List.any_eq_false]
  intro body hbody
  have hnone := List.findSome?_eq_none_iff.mp h body hbody
  cases body with
  | compiled emitter => cases hnone
  | _ => simp [Body.kind]

theorem attach_compiled (h : f.compiled? = none) (emitter : Emitter) :
    f.attach (.compiled emitter) = .ok { f with bodies := f.bodies ++ [.compiled emitter] } := by
  unfold attach
  rw [show (Body.compiled emitter).kind = .compiled from rfl, hasBody_compiled h]
  rfl

theorem compiled?_attached (h : f.compiled? = none) (emitter : Emitter) :
    compiled? { f with bodies := f.bodies ++ [.compiled emitter] } = some emitter := by
  rw [compiled?, List.findSome?_append]
  rw [compiled?] at h
  rw [h]
  rfl

theorem attach_eq_ok_iff {body : Body} {f' : Function} : f.attach body = .ok f' ↔
    f.hasBody body.kind = false ∧ (∀ d, body = .dependencies d → f.checkDependencies d = .ok ()) ∧
      f' = { f with bodies := f.bodies ++ [body] } := by
  cases hb : f.hasBody body.kind with
  | true =>
      refine iff_of_false (fun h => ?_) (by simp)
      unfold attach at h
      rw [hb] at h
      cases h
  | false =>
      unfold attach
      rw [hb]
      cases body with
      | dependencies d =>
          change (f.checkDependencies d >>= fun _ => Except.ok _) = _ ↔ _
          rw [bind_eq_ok_iff]
          constructor
          · rintro ⟨_, hd, hf⟩
            refine ⟨rfl, ?_, (Except.ok.inj hf).symm⟩
            rintro _ ⟨⟩
            exact hd
          · rintro ⟨-, hd, rfl⟩
            exact ⟨(), hd d rfl, rfl⟩
      | _ =>
          change Except.ok _ = _ ↔ _
          simp [eq_comm]

theorem checkDependencies_perOutput_eq_ok_iff {lists : Array (List Nat)} :
    f.checkDependencies (.perOutput lists) = .ok () ↔
      lists.size = f.outputs.size ∧ ∀ list ∈ lists, ∀ i ∈ list, i < f.inputs.size := by
  have hall : (lists.all fun inputs => inputs.all (· < f.inputs.size)) = true ↔
      ∀ list ∈ lists, ∀ i ∈ list, i < f.inputs.size := by
    simp only [Array.all_eq_true_iff_forall_mem, List.all_eq_true, decide_eq_true_eq]
  rw [checkDependencies, ← hall]
  by_cases hsize : lists.size = f.outputs.size
  · rw [if_neg (not_not_intro hsize)]
    cases lists.all fun inputs => inputs.all (· < f.inputs.size)
    · exact iff_of_false (by rintro ⟨⟩) fun h => by cases h.2
    · exact iff_of_true rfl ⟨hsize, rfl⟩
  · rw [if_pos hsize]
    exact iff_of_false (by rintro ⟨⟩) fun h => hsize h.1

theorem dependenciesOf_ofLists_eq_ok_iff {f : Function} {lists : List (List Nat)} {k : Nat} {list : List Nat} :
    f.dependenciesOf (.ofLists lists) k = .ok list ↔ ∃ found, lists[k]? = some found ∧ increasing found = list := by
  simp [dependenciesOf, Dependencies.ofLists]

theorem checkDependencies_ofLists {lists : List (List Nat)} (hsize : lists.length = f.outputs.size)
    (hlt : ∀ list ∈ lists, ∀ i ∈ list, i < f.inputs.size) : f.checkDependencies (.ofLists lists) = .ok () := by
  refine checkDependencies_perOutput_eq_ok_iff.mpr ⟨by simpa using hsize, fun found hfound i hi => ?_⟩
  obtain ⟨list, hmem, rfl⟩ := List.mem_map.mp (List.mem_toArray.mp hfound)
  exact hlt list hmem i (mem_increasing_iff.mp hi)

/-! ## Functions with their bodies -/

/-- The functions that attaching bodies leads to. -/
inductive Assembled : Function → Prop
  | new (name : String) (inputs outputs : Array Parameter) : Assembled { name, inputs, outputs }
  | attach {f f' : Function} {body : Body} (h : Assembled f) (hf : f.attach body = .ok f') : Assembled f'

theorem dependencies?_eq_none (h : f.hasBody .dependencies = false) : f.dependencies? = none := by
  rw [hasBody, List.any_eq_false] at h
  refine List.findSome?_eq_none_iff.mpr fun body hbody => ?_
  cases body with
  | dependencies d => exact absurd rfl (h _ hbody)
  | _ => rfl

theorem dependencies?_concat (body : Body) : dependencies? { f with bodies := f.bodies ++ [body] } =
    f.dependencies?.or (match body with | .dependencies d => some d | _ => none) := by
  rw [dependencies?, List.findSome?_append, dependencies?]
  cases body <;> rfl

theorem Assembled.checked (h : f.Assembled) {d : Dependencies} (hd : f.dependencies? = some d) :
    f.checkDependencies d = .ok () := by
  induction h with
  | new => cases hd
  | @attach f f' body _ hf ih =>
      obtain ⟨-, hcheck, rfl⟩ := attach_eq_ok_iff.mp hf
      rw [dependencies?_concat, Option.or_eq_some_iff] at hd
      rcases hd with hd | ⟨-, hd⟩
      · exact ih hd
      · cases body with
        | dependencies d' =>
            cases hd
            exact hcheck d rfl
        | _ => cases hd

theorem Assembled.exists_reads (h : f.Assembled) {o : Nat} (ho : o < f.outputs.size) :
    ∃ read, f.reads o = .ok read ∧ ∀ j ∈ read, j < f.inputs.size := by
  rw [reads]
  cases hd : f.dependencies? with
  | none => exact ⟨_, rfl, fun j hj => List.mem_range.mp hj⟩
  | some d =>
      cases d with
      | allInputs => exact ⟨_, if_pos ho, fun j hj => List.mem_range.mp hj⟩
      | perOutput lists =>
          obtain ⟨hsize, hlt⟩ := checkDependencies_perOutput_eq_ok_iff.mp (h.checked hd)
          rw [← hsize] at ho
          exact ⟨_, elementAt_eq_ok_iff.mpr (Array.getElem?_eq_getElem ho), hlt _ (Array.getElem_mem ho)⟩

end Function

end Nodeflow
