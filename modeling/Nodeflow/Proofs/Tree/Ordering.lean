import Nodeflow.Proofs.Tree.Offered
import Nodeflow.Proofs.Tree.Order
import Nodeflow.Proofs.Walk.Circles

/-!
# The order of edited trees

A tree that edits have built has an order exactly if its connections run in no circle. The order lists
each node of the tree once, and nothing else, and every connection leads from an earlier node to a
later one.
-/

namespace Nodeflow

open Relation

namespace Tree

variable {t : Tree}

def Precedes (t : Tree) (m n : NodeId) : Prop :=
  ∃ c ∈ t.connections.values, c.source.node = m ∧ c.target.node = n

theorem Ranked.not_circle {rank : NodeId → Nat} (h : t.Ranked rank) (id : NodeId) : ¬TransGen t.Precedes id id := by
  refine not_transGen_self rank ?_ id
  rintro _ _ ⟨c, hc, rfl, rfl⟩
  exact h c hc

theorem precedes_of_leads {m n : Nat} (h : Leads (t.feeders t.nodes.keys) m n) :
    ∃ a b, t.nodes.keys[m]? = some b ∧ t.nodes.keys[n]? = some a ∧ t.Precedes a b := by
  obtain ⟨c, hc, hm, hn⟩ := leads_feeders_iff.mp h
  obtain ⟨hlt, hsource, -⟩ := List.idxOf?_eq_some_iff.mp hn
  exact ⟨_, _, hm, by rw [List.getElem?_eq_getElem hlt, hsource], c, hc, rfl, rfl⟩

/-- A way back through the positions of nodes is a way forward through the nodes. -/
theorem transGen_precedes_of_leads {m n : Nat} (h : TransGen (Leads (t.feeders t.nodes.keys)) m n) :
    ∃ a b, t.nodes.keys[m]? = some b ∧ t.nodes.keys[n]? = some a ∧ TransGen t.Precedes a b := by
  induction h with
  | single h =>
      obtain ⟨a, b, hm, hn, hab⟩ := precedes_of_leads h
      exact ⟨a, b, hm, hn, .single hab⟩
  | tail _ h ih =>
      obtain ⟨a, b, hm, hn, hab⟩ := ih
      obtain ⟨a', b', hm', hn', hstep⟩ := precedes_of_leads h
      obtain rfl : b' = a := Option.some.inj (hm'.symm.trans hn)
      exact ⟨a', b, hm, hn', .head hstep hab⟩

theorem WellFormed.exists_order_iff_not_circle (h : t.WellFormed) :
    (∃ order, t.topologicalOrder? = some order) ↔ ∀ id, ¬TransGen t.Precedes id id := by
  constructor
  · intro horder
    obtain ⟨rank, hrank⟩ := h.exists_order_iff.mp horder
    exact hrank.not_circle
  · intro hno
    -- a circle of positions would be one of nodes
    have hcycle : t.nodeWalk.cycle = none := by
      refine cycle_walkFrom_eq_none_iff.mpr fun n hn => ?_
      obtain ⟨a, b, hb, ha, hab⟩ := transGen_precedes_of_leads hn
      obtain rfl : b = a := Option.some.inj (hb.symm.trans ha)
      exact hno b hab
    exact ⟨_, h.topologicalOrder?_eq_some_iff.mpr ⟨hcycle, rfl⟩⟩

section Listed

variable {order : List NodeId}

theorem mem_order_nodeWalk_iff (hc : t.nodeWalk.cycle = none) {n : Nat} :
    n ∈ t.nodeWalk.order.toList ↔ n < t.nodes.keys.length := by
  obtain ⟨-, -, hmem⟩ := order_walkFrom hc
  rw [← size_feeders (t := t), nodeWalk, hmem]
  constructor
  · rintro ⟨r, -, hlt, hreach⟩
    rcases ReflTransGen.cases_tail_iff .. |>.mp hreach with rfl | ⟨_, -, _, -, -, hn⟩
    · exact hlt
    · exact hn
  · exact fun hn => ⟨n, by simpa using hn, hn, .refl⟩

theorem WellFormed.nodup_order (h : t.WellFormed) (horder : t.topologicalOrder? = some order) : order.Nodup := by
  obtain ⟨hc, rfl⟩ := h.topologicalOrder?_eq_some_iff.mp horder
  obtain ⟨hnodup, -, -⟩ := order_walkFrom hc
  refine hnodup.filterMap fun i j id hi hj => ?_
  obtain ⟨hlt, -⟩ := List.getElem?_eq_some_iff.mp hi
  exact (List.getElem?_inj hlt h.nodeKeys).mp (hi.trans hj.symm)

theorem WellFormed.mem_order_iff (h : t.WellFormed) (horder : t.topologicalOrder? = some order) {id : NodeId} :
    id ∈ order ↔ id ∈ t.nodes.keys := by
  obtain ⟨hc, rfl⟩ := h.topologicalOrder?_eq_some_iff.mp horder
  rw [List.mem_filterMap, List.mem_iff_getElem?]
  simp only [mem_order_nodeWalk_iff hc]
  constructor
  · rintro ⟨i, -, hi⟩
    exact ⟨i, hi⟩
  · rintro ⟨i, hi⟩
    exact ⟨i, (List.getElem?_eq_some_iff.mp hi).1, hi⟩

theorem WellFormed.sublist_order (h : t.WellFormed) (horder : t.topologicalOrder? = some order) {c : Connection}
    (hc : c ∈ t.connections.values) : [c.source.node, c.target.node].Sublist order := by
  obtain ⟨hcycle, rfl⟩ := h.topologicalOrder?_eq_some_iff.mp horder
  obtain ⟨-, hordered, -⟩ := order_walkFrom hcycle
  obtain ⟨hs, ht⟩ := (h.joined c hc).mem_keys
  have hsource := List.getElem?_idxOf hs
  have htarget := List.getElem?_idxOf ht
  obtain ⟨before, after, he⟩ := List.append_of_mem
    ((mem_order_nodeWalk_iff hcycle).mpr (List.idxOf_lt_length_of_mem ht))
  have hbefore := hordered before _ after he _ (h.leads_feeders hc)
  have hpair : [t.nodes.keys.idxOf c.source.node, t.nodes.keys.idxOf c.target.node].Sublist t.nodeWalk.order.toList := by
    rw [he]
    exact (List.singleton_sublist.mpr hbefore).append (List.singleton_sublist.mpr List.mem_cons_self)
  have hmapped := hpair.filterMap fun i => t.nodes.keys[i]?
  rwa [List.filterMap_cons_some hsource, List.filterMap_cons_some htarget, List.filterMap_nil] at hmapped

end Listed

/-- An edited tree has an order unless its connections run in a circle: all its nodes, sources first. -/
theorem edited_is_ordered {allowed : Edit → Prop} (h : Edited allowed t) :
    ((∃ order, t.topologicalOrder? = some order) ↔ ∀ id, ¬TransGen t.Precedes id id) ∧
    ∀ order, t.topologicalOrder? = some order → order.Nodup ∧ (∀ id, id ∈ order ↔ id ∈ t.nodes.keys) ∧
      ∀ c ∈ t.connections.values, [c.source.node, c.target.node].Sublist order := by
  have hw := h.wellFormed
  exact ⟨hw.exists_order_iff_not_circle, fun order horder =>
    ⟨hw.nodup_order horder, fun _ => hw.mem_order_iff horder, fun _ => hw.sublist_order horder⟩⟩

/-! A sum of a sum has an order; two sums that wait for each other run in a circle and have none. -/

instance (t : Tree) : DecidableRel t.Precedes := fun m n =>
  inferInstanceAs (Decidable (∃ c ∈ t.connections.values, c.source.node = m ∧ c.target.node = n))

/-- Two sums, each of which takes the other one for its first summand. -/
def sumsInCircle : Tree :=
  [Edit.addNode (sumNode 0), .addNode (sumNode 1),
    .connectAt (Supply.connectionId 0) (Supply.nodeId 0) 0 (Supply.nodeId 1) 0,
    .connectAt (Supply.connectionId 1) (Supply.nodeId 1) 0 (Supply.nodeId 0) 0].foldl after { name := "circle" }

theorem edited_sumsInCircle : sumsInCircle.Edited Edit.Offered := by
  refine .after (.after (.after (.after (.new _) (offered_sumNode 0) ?_) (offered_sumNode 1) ?_) trivial ?_)
    trivial ?_ <;> decide +kernel

theorem circle_sumsInCircle : TransGen sumsInCircle.Precedes (Supply.nodeId 0) (Supply.nodeId 0) := by
  have hthere : sumsInCircle.Precedes (Supply.nodeId 0) (Supply.nodeId 1) := by decide +kernel
  have hback : sumsInCircle.Precedes (Supply.nodeId 1) (Supply.nodeId 0) := by decide +kernel
  exact .tail (.single hthere) hback

theorem edited_is_ordered_sumOfSum : Edited (fun _ => True) sumOfSum ∧ sumsInCircle.Edited Edit.Offered ∧
    (∃ order, sumOfSum.topologicalOrder? = some order ∧ order.Nodup ∧ (∀ id, id ∈ order ↔ id ∈ sumOfSum.nodes.keys) ∧
      [Supply.nodeId 0, Supply.nodeId 1].Sublist order) ∧
    sumsInCircle.topologicalOrder? = none := by
  have hranked : sumOfSum.Ranked fun id => if id = Supply.nodeId 0 then 0 else 1 := by decide +kernel
  have hprecedes : sumOfSum.Precedes (Supply.nodeId 0) (Supply.nodeId 1) := by decide +kernel
  obtain ⟨hiff, hlisted⟩ := edited_is_ordered edited_sumOfSum
  obtain ⟨order, horder⟩ := hiff.mpr hranked.not_circle
  obtain ⟨hnodup, hmem, hbefore⟩ := hlisted order horder
  obtain ⟨c, hc, hs, ht⟩ := hprecedes
  have hcircle : sumsInCircle.topologicalOrder? = none := by
    by_contra hsome
    exact (edited_is_ordered edited_sumsInCircle).1.mp (Option.ne_none_iff_exists'.mp hsome) _ circle_sumsInCircle
  exact ⟨edited_sumOfSum, edited_sumsInCircle, ⟨order, horder, hnodup, hmem, hs ▸ ht ▸ hbefore c hc⟩, hcircle⟩

end Tree

end Nodeflow
