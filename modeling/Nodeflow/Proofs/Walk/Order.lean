import Nodeflow.Walk
import Mathlib.Data.List.Basic
import Mathlib.Logic.Relation

/-!
# The order of a walk

If no arrow leads back to the path, the walk lists exactly the nodes that can be reached from its
roots, each once and after all nodes its arrows lead to.
-/

namespace Nodeflow

/-- An arrow of `m` leads to the node `n`. Arrows that lead out of the graph do not count. -/
def Leads (arrows : Array (List Nat)) (m n : Nat) : Prop :=
  ∃ targets, arrows[m]? = some targets ∧ n ∈ targets ∧ n < arrows.size

def Reaches (arrows : Array (List Nat)) (roots : List Nat) (n : Nat) : Prop :=
  ∃ r ∈ roots, r < arrows.size ∧ Relation.ReflTransGen (Leads arrows) r n

/-- Everything that a node of the list leads to stands before it. -/
def Ordered (arrows : Array (List Nat)) (order : List Nat) : Prop :=
  ∀ before n after, order = before ++ n :: after → ∀ m, Leads arrows n m → m ∈ before

theorem Ordered.push {arrows : Array (List Nat)} {order : List Nat} {n : Nat}
    (h : Ordered arrows order) (hn : ∀ m, Leads arrows n m → m ∈ order) :
    Ordered arrows (order ++ [n]) := by
  intro before k after he m hm
  rcases List.eq_nil_or_concat after with rfl | ⟨rest, last, rfl⟩
  · obtain ⟨rfl, hk⟩ := List.append_inj' he rfl
    cases hk
    exact hn m hm
  · have he' : order ++ [n] = (before ++ k :: rest) ++ [last] := by simpa using he
    obtain ⟨rfl, -⟩ := List.append_inj' he' rfl
    exact h before k rest rfl m hm

theorem Ordered.closed {arrows : Array (List Nat)} {order : List Nat} (h : Ordered arrows order)
    {m n : Nat} (hm : m ∈ order) (hl : Relation.ReflTransGen (Leads arrows) m n) : n ∈ order := by
  induction hl with
  | refl => exact hm
  | tail _ hstep ih =>
      obtain ⟨before, after, he⟩ := List.append_of_mem ih
      exact he ▸ List.mem_append_left _ (h before _ after he _ hstep)

namespace Walk

variable {arrows : Array (List Nat)} {w : Walk}

/-- The state of the walk after its innermost node has been finished. -/
def close (w : Walk) (node : Nat) (rest : List (Nat × List Nat)) : Walk :=
  { w with path := rest, marks := w.marks.setIfInBounds node Mark.finished, order := w.order.push node }

/-- What holds of a walk and is kept by each of its two steps holds when the path is empty. -/
theorem run_induction {P : Walk → Prop}
    (finish : ∀ w node rest, w.path = (node, []) :: rest → P w → P (w.close node rest))
    (follow : ∀ w node next others rest, w.path = (node, next :: others) :: rest → P w →
      P ({ w with path := (node, others) :: rest }.meet next))
    (w : Walk) (h : P w) : P w.run ∧ w.run.path = [] := by
  induction w using Walk.run.induct with
  | case1 w hp =>
      rw [run]
      split <;> simp_all
  | case2 w node rest hp ih =>
      rw [run]
      split <;> rename_i heq <;> rw [hp] at heq <;> cases heq
      exact ih (finish w node rest hp h)
  | case3 w node next others rest hp ih =>
      rw [run]
      split <;> rename_i heq <;> rw [hp] at heq <;> cases heq
      exact ih (follow w node next others rest hp h)

theorem visitAll_induction {P : Walk → Prop}
    (finish : ∀ w node rest, w.path = (node, []) :: rest → P w → P (w.close node rest))
    (follow : ∀ w node next others rest, w.path = (node, next :: others) :: rest → P w →
      P ({ w with path := (node, others) :: rest }.meet next))
    (roots : List Nat) (visit : ∀ w, ∀ root ∈ roots, w.path = [] → P w → P (w.meet root))
    (w : Walk) (hp : w.path = []) (h : P w) :
    P (w.visitAll roots) ∧ (w.visitAll roots).path = [] := by
  induction roots generalizing w with
  | nil => exact ⟨h, hp⟩
  | cons root roots ih =>
      have hr := run_induction finish follow _ (visit w root (by simp) hp h)
      exact ih (fun w r hm => visit w r (by simp [hm])) _ hr.2 hr.1

/-- What the marks of a walk say about its path and its order. -/
structure Marked (arrows : Array (List Nat)) (w : Walk) : Prop where
  size : w.marks.size = arrows.size
  unseen : ∀ (n : Nat) (targets : List Nat), w.marks[n]? = some (Mark.unseen targets) → arrows[n]? = some targets
  active : ∀ n : Nat, w.marks[n]? = some Mark.active ↔ n ∈ w.path.map Prod.fst
  finished : ∀ n : Nat, w.marks[n]? = some Mark.finished ↔ n ∈ w.order.toList
  path_nodup : (w.path.map Prod.fst).Nodup
  order_nodup : w.order.toList.Nodup
  taken : ∀ (n : Nat) (others : List Nat), (n, others) ∈ w.path → ∃ taken, arrows[n]? = some (taken ++ others)

theorem Marked.lt_size (h : Marked arrows w) {n : Nat} {m : Mark} (hm : w.marks[n]? = some m) :
    n < arrows.size := by
  obtain ⟨hn, -⟩ := Array.getElem?_eq_some_iff.mp hm
  exact h.size ▸ hn

theorem marked_start (arrows : Array (List Nat)) : Marked arrows (start arrows) where
  size := by simp [start]
  unseen n targets h := by simpa [start] using h
  active n := by cases h : arrows[n]? <;> simp [start, h]
  finished n := by cases h : arrows[n]? <;> simp [start, h]
  path_nodup := by simp [start]
  order_nodup := by simp [start]
  taken n others h := by simp [start] at h

theorem Marked.meet (h : Marked arrows w) (node : Nat) : Marked arrows (w.meet node) := by
  unfold Walk.meet
  split
  · rename_i targets hu
    have hlt : node < w.marks.size := h.size ▸ h.lt_size hu
    have hnew : node ∉ w.path.map Prod.fst := by simp [← h.active, hu]
    have hnew' : node ∉ w.order.toList := by simp [← h.finished, hu]
    have hmark (n : Nat) : (w.marks.setIfInBounds node Mark.active)[n]? =
        if node = n then some Mark.active else w.marks[n]? := by
      rw [Array.getElem?_setIfInBounds]
      by_cases hn : node = n <;> simp [hn]
      subst hn; exact hlt
    refine ⟨by simpa using h.size, ?_, ?_, ?_, by simpa using ⟨by simpa using hnew, h.path_nodup⟩,
      h.order_nodup, ?_⟩
    · intro n t hn
      rw [hmark] at hn
      split at hn
      · cases hn
      · exact h.unseen n t hn
    · intro n
      rw [hmark, List.map_cons, List.mem_cons, ← h.active]
      by_cases hn : node = n <;> simp [hn, eq_comm]
    · intro n
      rw [hmark, ← h.finished]
      by_cases hn : node = n <;> simp [hn]
      subst hn; simp [hu]
    · intro n others hm
      rcases List.mem_cons.mp hm with he | hm
      · cases he
        exact ⟨[], h.unseen _ _ hu⟩
      · exact h.taken n others hm
  · exact ⟨h.size, h.unseen, h.active, h.finished, h.path_nodup, h.order_nodup, h.taken⟩
  · exact h

theorem Marked.close {node : Nat} {rest : List (Nat × List Nat)} (h : Marked arrows w)
    (hp : w.path = (node, []) :: rest) : Marked arrows (w.close node rest) := by
  have hnodup := h.path_nodup
  rw [hp, List.map_cons, List.nodup_cons] at hnodup
  have hact : w.marks[node]? = some Mark.active := by simp [h.active, hp]
  have hnew : node ∉ w.order.toList := by simp [← h.finished, hact]
  have hlt : node < w.marks.size := h.size ▸ h.lt_size hact
  have hmark (n : Nat) : (w.marks.setIfInBounds node Mark.finished)[n]? =
      if node = n then some Mark.finished else w.marks[n]? := by
    rw [Array.getElem?_setIfInBounds]
    by_cases hn : node = n <;> simp [hn]
    subst hn; exact hlt
  refine ⟨by simpa [Walk.close] using h.size, ?_, ?_, ?_, hnodup.2, ?_, ?_⟩
  · intro n t hn
    simp only [Walk.close, hmark] at hn
    split at hn
    · cases hn
    · exact h.unseen n t hn
  · intro n
    simp only [Walk.close, hmark]
    by_cases hn : node = n
    · subst hn; simpa using hnodup.1
    · simp [hn, h.active, hp, Ne.symm hn]
  · intro n
    simp only [Walk.close, hmark, Array.toList_push, List.mem_append, List.mem_singleton]
    by_cases hn : node = n
    · simp [hn]
    · simp only [hn, if_false, h.finished, Ne.symm hn, or_false]
  · simpa [Walk.close, List.nodup_append, h.order_nodup] using fun a ha (he : a = node) => hnew (he ▸ by simpa using ha)
  · intro n others hm
    exact h.taken n others (by rw [hp]; exact List.mem_cons_of_mem _ hm)

theorem Marked.advance {node next : Nat} {others : List Nat} {rest : List (Nat × List Nat)}
    (h : Marked arrows w) (hp : w.path = (node, next :: others) :: rest) :
    Marked arrows { w with path := (node, others) :: rest } := by
  refine ⟨h.size, h.unseen, by simpa [hp] using h.active, h.finished, by simpa [hp] using h.path_nodup,
    h.order_nodup, ?_⟩
  intro n others' hm
  rcases List.mem_cons.mp hm with he | hm
  · cases he
    obtain ⟨taken, ht⟩ := h.taken node (next :: others) (by simp [hp])
    exact ⟨taken ++ [next], by simpa using ht⟩
  · exact h.taken n others' (by rw [hp]; exact List.mem_cons_of_mem _ hm)

theorem marked_walkFrom (arrows : Array (List Nat)) (roots : List Nat) :
    Marked arrows (walkFrom arrows roots) ∧ (walkFrom arrows roots).path = [] :=
  visitAll_induction (P := Marked arrows) (fun _ _ _ hp h => h.close hp)
    (fun _ _ next _ _ hp h => (h.advance hp).meet next) roots (fun _ root _ _ h => h.meet root) _ rfl
    (marked_start arrows)

/-- Along the path, each node waits for the arrows not yet taken and for the node further in. -/
def Waits (arrows : Array (List Nat)) (order : List Nat) :
    Option Nat → List (Nat × List Nat) → Prop
  | _, [] => True
  | inner, (n, others) :: outer =>
      (∀ m, Leads arrows n m → m ∈ others ∨ m ∈ order ∨ inner = some m) ∧
        Waits arrows order (some n) outer

theorem Waits.push {order : List Nat} {inner : Option Nat} {path : List (Nat × List Nat)} {n : Nat}
    (h : Waits arrows order inner path) : Waits arrows (order ++ [n]) inner path := by
  induction path generalizing inner with
  | nil => trivial
  | cons entry outer ih =>
      refine ⟨fun m hm => ?_, ih h.2⟩
      rcases h.1 m hm with h | h | h
      · exact .inl h
      · exact .inr (.inl (List.mem_append_left _ h))
      · exact .inr (.inr h)

theorem Waits.finish {order : List Nat} {path : List (Nat × List Nat)} {n : Nat}
    (h : Waits arrows order (some n) path) : Waits arrows (order ++ [n]) none path := by
  cases path with
  | nil => trivial
  | cons entry outer =>
      refine ⟨fun m hm => ?_, h.2.push⟩
      rcases h.1 m hm with h | h | h
      · exact .inl h
      · exact .inr (.inl (List.mem_append_left _ h))
      · cases h; exact .inr (.inl (by simp))

/-- Unless an arrow has led back to the path, the order is one and the path waits for the rest. -/
structure Settled (arrows : Array (List Nat)) (w : Walk) : Prop extends Marked arrows w where
  ordered : w.cycle = none → Ordered arrows w.order.toList
  waits : w.cycle = none → Waits arrows w.order.toList none w.path

theorem Settled.close {node : Nat} {rest : List (Nat × List Nat)} (h : Settled arrows w)
    (hp : w.path = (node, []) :: rest) : Settled arrows (w.close node rest) := by
  refine ⟨h.toMarked.close hp, fun hc => ?_, fun hc => ?_⟩
  · have hw := h.waits hc
    rw [hp] at hw
    have hn : ∀ m, Leads arrows node m → m ∈ w.order.toList := fun m hm => by
      simpa using hw.1 m hm
    simpa [Walk.close] using (h.ordered hc).push hn
  · have hw := h.waits hc
    rw [hp] at hw
    simpa [Walk.close] using hw.2.finish

theorem Settled.follow {node next : Nat} {others : List Nat} {rest : List (Nat × List Nat)}
    (h : Settled arrows w) (hp : w.path = (node, next :: others) :: rest) :
    Settled arrows ({ w with path := (node, others) :: rest }.meet next) := by
  have hm := (h.toMarked.advance hp).meet next
  have hwaits (hc : w.cycle = none) := h.waits hc
  rw [hp] at hwaits
  refine ⟨hm, ?_, ?_⟩
  · unfold Walk.meet
    split
    · exact h.ordered
    · intro hc; simp at hc
    · exact h.ordered
  · unfold Walk.meet
    split
    · rename_i targets hu
      intro hc
      refine ⟨fun m hl => ?_, fun m hl => ?_, (hwaits hc).2⟩
      · obtain ⟨ts, ht, hmem, -⟩ := hl
        rw [h.unseen next targets hu] at ht
        cases ht
        exact .inl hmem
      · rcases (hwaits hc).1 m hl with hmem | hmem | hmem
        · rcases List.mem_cons.mp hmem with rfl | hmem
          · exact .inr (.inr rfl)
          · exact .inl hmem
        · exact .inr (.inl hmem)
        · cases hmem
    · intro hc; simp at hc
    · rename_i hu ha
      intro hc
      refine ⟨fun m hl => ?_, (hwaits hc).2⟩
      rcases (hwaits hc).1 m hl with hmem | hmem | hmem
      · rcases List.mem_cons.mp hmem with rfl | hmem
        · refine .inr (.inl ?_)
          obtain ⟨ts, ht, hmem, hlt⟩ := hl
          rw [← h.size] at hlt
          rw [← h.finished]
          have hget := Array.getElem?_eq_getElem hlt
          cases hmark : w.marks[m] with
          | unseen targets => exact absurd (hget.trans (by rw [hmark])) (hu targets)
          | active => exact absurd (hget.trans (by rw [hmark])) ha
          | finished => rw [hget, hmark]
        · exact .inl hmem
      · exact .inr (.inl hmem)
      · cases hmem

theorem Settled.visit {root : Nat} (h : Settled arrows w) (hp : w.path = []) :
    Settled arrows (w.meet root) := by
  refine ⟨h.toMarked.meet root, ?_, ?_⟩
  · unfold Walk.meet
    split
    · exact h.ordered
    · intro hc; exact h.ordered (by simpa using (Option.or_eq_none_iff.mp hc).1)
    · exact h.ordered
  · unfold Walk.meet
    split
    · rename_i targets hu
      intro hc
      refine ⟨fun m hl => ?_, by simp [hp, Waits]⟩
      obtain ⟨ts, ht, hmem, -⟩ := hl
      rw [h.unseen root targets hu] at ht
      cases ht
      exact .inl hmem
    · intro hc; exact h.waits (by simpa using (Option.or_eq_none_iff.mp hc).1)
    · exact h.waits

theorem settled_walkFrom (arrows : Array (List Nat)) (roots : List Nat) :
    Settled arrows (walkFrom arrows roots) :=
  (visitAll_induction (P := Settled arrows) (fun _ _ _ hp h => h.close hp)
    (fun _ _ _ _ _ hp h => h.follow hp) roots (fun _ _ _ hp h => h.visit hp) _ rfl
    ⟨marked_start arrows, fun _ => by intro before n after he; simp [start] at he, fun _ => trivial⟩).1

/-- All nodes that have been seen can be reached, and the roots so far have been seen. -/
structure Found (arrows : Array (List Nat)) (roots : List Nat) (w : Walk) : Prop
    extends Marked arrows w where
  path_reached : ∀ n ∈ w.path.map Prod.fst, Reaches arrows roots n
  order_reached : ∀ n ∈ w.order.toList, Reaches arrows roots n

theorem Found.close {roots : List Nat} {node : Nat} {rest : List (Nat × List Nat)}
    (h : Found arrows roots w) (hp : w.path = (node, []) :: rest) :
    Found arrows roots (w.close node rest) := by
  refine ⟨h.toMarked.close hp, fun n hn => h.path_reached n ?_, fun n hn => ?_⟩
  · rw [hp]; exact List.mem_cons_of_mem _ hn
  · rw [Walk.close, Array.toList_push, List.mem_append, List.mem_singleton] at hn
    rcases hn with hn | rfl
    · exact h.order_reached n hn
    · exact h.path_reached n (by simp [hp])

theorem Found.meet {roots : List Nat} {next : Nat} (h : Found arrows roots w)
    (hn : next < arrows.size → Reaches arrows roots next) : Found arrows roots (w.meet next) := by
  refine ⟨h.toMarked.meet next, ?_, ?_⟩
  · unfold Walk.meet
    split
    · rename_i targets hu
      intro n hmem
      rw [List.map_cons, List.mem_cons] at hmem
      rcases hmem with rfl | hmem
      · exact hn (h.lt_size hu)
      · exact h.path_reached n hmem
    · exact h.path_reached
    · exact h.path_reached
  · unfold Walk.meet
    split <;> exact h.order_reached

theorem Found.follow {roots : List Nat} {node next : Nat} {others : List Nat}
    {rest : List (Nat × List Nat)} (h : Found arrows roots w)
    (hp : w.path = (node, next :: others) :: rest) :
    Found arrows roots ({ w with path := (node, others) :: rest }.meet next) := by
  refine Found.meet ⟨h.toMarked.advance hp, by simpa [hp] using h.path_reached, h.order_reached⟩ ?_
  intro hlt
  obtain ⟨r, hr, hrs, hreach⟩ := h.path_reached node (by simp [hp])
  obtain ⟨taken, ht⟩ := h.taken node (next :: others) (by simp [hp])
  exact ⟨r, hr, hrs, hreach.tail ⟨_, ht, by simp, hlt⟩⟩

theorem found_walkFrom (arrows : Array (List Nat)) (roots : List Nat) :
    Found arrows roots (walkFrom arrows roots) :=
  (visitAll_induction (P := Found arrows roots) (fun _ _ _ hp h => h.close hp)
    (fun _ _ _ _ _ hp h => h.follow hp) roots
    (fun _ root hr _ h => h.meet fun hlt => ⟨root, hr, hlt, .refl⟩) _ rfl
    ⟨marked_start arrows, by simp [start], by simp [start]⟩).1

def Seen (n : Nat) (w : Walk) : Prop := ∀ targets, w.marks[n]? ≠ some (Mark.unseen targets)

theorem Seen.set {n node : Nat} {m : Mark} (h : Seen n w) (hm : ∀ targets, m ≠ .unseen targets)
    (targets : List Nat) : (w.marks.setIfInBounds node m)[n]? ≠ some (.unseen targets) := by
  intro he
  rw [Array.getElem?_setIfInBounds] at he
  split at he
  · split at he
    · exact hm targets (Option.some.inj he)
    · cases he
  · exact h targets he

theorem Seen.meet {n : Nat} (h : Seen n w) (node : Nat) : Seen n (w.meet node) := by
  unfold Walk.meet
  split
  · exact h.set (by simp)
  · exact h
  · exact h

theorem seen_meet (w : Walk) (node : Nat) : Seen node (w.meet node) := by
  unfold Walk.meet
  split
  · intro targets he
    rw [Array.getElem?_setIfInBounds] at he
    simp at he
  · rename_i ha
    intro targets he
    exact absurd (ha.symm.trans he) (by simp)
  · rename_i hu _
    exact hu

theorem Seen.run {n : Nat} (h : Seen n w) : Seen n w.run :=
  (run_induction (P := Seen n) (fun _ _ _ _ h => h.set (by simp))
    (fun w node next others rest _ h => Seen.meet (w := { w with path := (node, others) :: rest }) h next)
    w h).1

theorem Seen.visitAll {n : Nat} (h : Seen n w) (roots : List Nat) : Seen n (w.visitAll roots) := by
  induction roots generalizing w with
  | nil => exact h
  | cons root roots ih => exact ih (h.meet root).run

theorem seen_visitAll {n : Nat} {roots : List Nat} (hn : n ∈ roots) : Seen n (w.visitAll roots) := by
  induction roots generalizing w with
  | nil => cases hn
  | cons root roots ih =>
      rcases List.mem_cons.mp hn with rfl | hn
      · exact (seen_meet w n).run.visitAll roots
      · exact ih hn

/-- A number for each node that every arrow lowers. -/
def Descends (arrows : Array (List Nat)) (rank : Nat → Nat) : Prop :=
  ∀ m n, Leads arrows m n → rank n < rank m

structure Rising (arrows : Array (List Nat)) (rank : Nat → Nat) (w : Walk) : Prop
    extends Marked arrows w where
  rising : (w.path.map Prod.fst).Pairwise (rank · < rank ·)
  acyclic : w.cycle = none

theorem Rising.follow {rank : Nat → Nat} (hr : Descends arrows rank) {node next : Nat}
    {others : List Nat} {rest : List (Nat × List Nat)} (h : Rising arrows rank w)
    (hp : w.path = (node, next :: others) :: rest) :
    Rising arrows rank ({ w with path := (node, others) :: rest }.meet next) := by
  have hm := (h.toMarked.advance hp).meet next
  have hrise := h.rising
  rw [hp, List.map_cons] at hrise
  have hlow (hlt : next < arrows.size) : ∀ n ∈ node :: rest.map Prod.fst, rank next < rank n := by
    obtain ⟨taken, ht⟩ := h.taken node (next :: others) (by simp [hp])
    have hnode : rank next < rank node := hr node next ⟨_, ht, by simp, hlt⟩
    intro n hn
    rcases List.mem_cons.mp hn with rfl | hn
    · exact hnode
    · exact Nat.lt_trans hnode (List.rel_of_pairwise_cons hrise hn)
  refine ⟨hm, ?_, ?_⟩
  · unfold Walk.meet
    split
    · rename_i targets hu
      exact List.Pairwise.cons (hlow (h.lt_size hu)) hrise
    · exact hrise
    · exact hrise
  · unfold Walk.meet
    split
    · exact h.acyclic
    · rename_i ha
      have hmem : next ∈ node :: rest.map Prod.fst := by
        simpa [hp] using (h.active next).mp ha
      exact absurd (hlow (h.lt_size ha) next hmem) (Nat.lt_irrefl _)
    · exact h.acyclic

theorem Rising.visit {rank : Nat → Nat} {root : Nat} (h : Rising arrows rank w) (hp : w.path = []) :
    Rising arrows rank (w.meet root) := by
  refine ⟨h.toMarked.meet root, ?_, ?_⟩
  · unfold Walk.meet
    split <;> simp [hp]
  · unfold Walk.meet
    split
    · exact h.acyclic
    · rename_i ha
      simp [h.active, hp] at ha
    · exact h.acyclic

theorem rising_walkFrom {rank : Nat → Nat} (hr : Descends arrows rank) (roots : List Nat) :
    Rising arrows rank (walkFrom arrows roots) :=
  (visitAll_induction (P := Rising arrows rank)
    (fun w node rest hp h => by
      refine ⟨h.toMarked.close hp, ?_, h.acyclic⟩
      have hrise := h.rising
      rw [hp, List.map_cons] at hrise
      exact hrise.of_cons)
    (fun _ _ _ _ _ hp h => h.follow hr hp) roots (fun _ _ _ hp h => h.visit hp) _ rfl
    ⟨marked_start arrows, by simp [start], rfl⟩).1

end Walk

/-- The walk on a graph without cycles lists what its roots reach, each node after its targets. -/
theorem order_walkFrom {arrows : Array (List Nat)} {roots : List Nat}
    (hc : (walkFrom arrows roots).cycle = none) :
    (walkFrom arrows roots).order.toList.Nodup ∧ Ordered arrows (walkFrom arrows roots).order.toList ∧
      ∀ n, n ∈ (walkFrom arrows roots).order.toList ↔ Reaches arrows roots n := by
  obtain ⟨hm, hp⟩ := Walk.marked_walkFrom arrows roots
  have hs := Walk.settled_walkFrom arrows roots
  refine ⟨hm.order_nodup, hs.ordered hc, fun n => ⟨(Walk.found_walkFrom arrows roots).order_reached n, ?_⟩⟩
  rintro ⟨r, hr, hlt, hreach⟩
  refine (hs.ordered hc).closed ?_ hreach
  rw [← hm.finished]
  rw [← hm.size] at hlt
  have hget := Array.getElem?_eq_getElem hlt
  cases hmark : (walkFrom arrows roots).marks[r] with
  | unseen targets =>
      exact absurd (hget.trans (by rw [hmark])) (Walk.seen_visitAll (w := Walk.start arrows) hr targets)
  | active =>
      have ha := (hm.active r).mp (hget.trans (by rw [hmark]))
      simp [hp] at ha
  | finished => rw [hget, hmark]

theorem cycle_walkFrom_eq_none {arrows : Array (List Nat)} {rank : Nat → Nat}
    (hr : Walk.Descends arrows rank) (roots : List Nat) : (walkFrom arrows roots).cycle = none :=
  (Walk.rising_walkFrom hr roots).acyclic

/-- A walk over all nodes that meets no cycle numbers them so that every arrow leads down. -/
theorem descends_of_cycle_eq_none {arrows : Array (List Nat)}
    (hc : (walkFrom arrows (List.range arrows.size)).cycle = none) :
    ∃ rank, Walk.Descends arrows rank := by
  obtain ⟨hnodup, hordered, hmem⟩ := order_walkFrom hc
  refine ⟨fun n => (walkFrom arrows (List.range arrows.size)).order.toList.idxOf n, fun m n hl => ?_⟩
  obtain ⟨targets, hm, -⟩ := id hl
  have hlt : m < arrows.size := (Array.getElem?_eq_some_iff.mp hm).1
  obtain ⟨before, after, he⟩ := List.append_of_mem
    ((hmem m).mpr ⟨m, by simpa using hlt, hlt, .refl⟩)
  have hn := hordered before m after he n hl
  rw [he] at hnodup ⊢
  have hmb : m ∉ before := fun h => (List.nodup_append.mp hnodup).2.2 m h m (by simp) rfl
  show List.idxOf n (before ++ m :: after) < List.idxOf m (before ++ m :: after)
  rw [List.idxOf_append_of_mem hn, List.idxOf_append_of_notMem hmb, List.idxOf_cons_self, Nat.add_zero]
  exact List.idxOf_lt_length_of_mem hn

end Nodeflow
