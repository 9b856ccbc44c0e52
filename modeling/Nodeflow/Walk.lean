/-!
# Depth-first walks

A walk follows the arrows of a finite graph from given roots. Nodes are numbers, and each comes with
the list of the nodes its arrows lead to. A node is listed after everything that can be reached from
it, except where an arrow leads back to a node whose own arrows are still being followed; the first
node that such an arrow leads to is remembered, and the walk goes on.

A node that has not been met keeps its list of arrows. When it is met the list moves to the path, so
each step of the walk uses up an arrow or a node.
-/

namespace Nodeflow

inductive Mark where
  /-- It has not been met; its arrows lead to these nodes. -/
  | unseen (arrows : List Nat)
  /-- It is on the path. -/
  | active
  /-- It has been listed. -/
  | finished
  deriving DecidableEq, Repr, Inhabited

structure Walk where
  marks : Array Mark
  /-- The nodes being followed, innermost first, each with the arrows not yet taken. -/
  path : List (Nat × List Nat) := []
  /-- The nodes that are finished, in the order of finishing. -/
  order : Array Nat := #[]
  /-- The first node on the path that an arrow led back to. -/
  cycle : Option Nat := none
  deriving Repr, Inhabited

def total (xs : List Nat) : Nat := xs.foldr (· + ·) 0

@[simp] theorem total_cons (x : Nat) (xs : List Nat) : total (x :: xs) = x + total xs := rfl

/-- The steps that a mark is good for: two for an unseen node and one for each of its arrows. -/
def Mark.work : Mark → Nat
  | unseen arrows => arrows.length + 2
  | active | finished => 0

namespace Walk

/-- The start of a walk on the graph given by the arrows of each node. -/
def start (arrows : Array (List Nat)) : Walk := { marks := arrows.map .unseen }

/-- A bound for the steps still to come. -/
def work (w : Walk) : Nat :=
  total (w.marks.toList.map Mark.work) + total (w.path.map fun entry => entry.2.length + 1)

/-- Meets a node: an unseen one is put on the path. -/
def meet (w : Walk) (node : Nat) : Walk :=
  match w.marks[node]? with
  | some (.unseen arrows) =>
    { w with marks := w.marks.setIfInBounds node .active, path := (node, arrows) :: w.path }
  | some .active => { w with cycle := w.cycle.or (some node) }
  | _ => w

theorem total_set_zero (xs : List Nat) (i : Nat) :
    total (xs.set i 0) + xs[i]?.getD 0 = total xs := by
  induction xs generalizing i with
  | nil => rfl
  | cons x rest ih =>
    cases i with
    | zero => simp; omega
    | succ i =>
      have := ih i
      simp; omega

theorem work_meet_le (w : Walk) (node : Nat) : (w.meet node).work ≤ w.work := by
  unfold meet
  split
  · rename_i arrows h
    have := total_set_zero (w.marks.toList.map Mark.work) node
    simp [h, Mark.work] at this
    simp [work, Mark.work]; omega
  · simp [work]
  · exact Nat.le_refl _

/-- Follows the path until it is empty. -/
def run (w : Walk) : Walk :=
  match _path : w.path with
  | [] => w
  | (node, []) :: rest =>
    run { w with
      path := rest
      marks := w.marks.setIfInBounds node .finished
      order := w.order.push node }
  | (node, next :: arrows) :: rest => run ({ w with path := (node, arrows) :: rest }.meet next)
termination_by w.work
decreasing_by
  · have := total_set_zero (w.marks.toList.map Mark.work) node
    simp [work, _path, Mark.work]; omega
  · have := work_meet_le { w with path := (node, arrows) :: rest } next
    simp [work, _path] at this ⊢; omega

def visitAll (w : Walk) (roots : List Nat) : Walk := roots.foldl (fun w root => (w.meet root).run) w

end Walk

def walkFrom (arrows : Array (List Nat)) (roots : List Nat) : Walk :=
  (Walk.start arrows).visitAll roots

end Nodeflow
