import Nodeflow.Tree.Order
import Nodeflow.Proofs.Tree.Editing
import Nodeflow.Proofs.Walk.Order

/-!
# Trees without circles

A tree that edits have built has an order exactly if its nodes can be given numbers that every
connection raises.
-/

namespace Nodeflow

namespace Tree

variable {t : Tree} {c : Connection}

/-- Every connection leads to a node of a higher number. -/
def Ranked (t : Tree) (rank : NodeId → Nat) : Prop :=
  ∀ c ∈ t.connections.values, rank c.source.node < rank c.target.node

instance (t : Tree) (rank : NodeId → Nat) : Decidable (t.Ranked rank) :=
  inferInstanceAs (Decidable (∀ c ∈ t.connections.values, rank c.source.node < rank c.target.node))

theorem Holds.mem_keys {e : Endpoint} {p : Port} (h : t.Holds e p) : e.node ∈ t.nodes.keys := by
  obtain ⟨n, hn, -⟩ := h
  by_contra hnot
  rw [OrderedMap.get?_eq_none_iff.mpr hnot] at hn
  cases hn

theorem Joins.mem_keys (h : t.Joins c) : c.source.node ∈ t.nodes.keys ∧ c.target.node ∈ t.nodes.keys := by
  obtain ⟨p, q, hp, hq, -⟩ := h.compatible
  exact ⟨hp.mem_keys, hq.mem_keys⟩

theorem WellFormed.knownNodes_eq (h : t.WellFormed) : t.knownNodes = t.nodes.keys := by
  have hnone : (t.connections.values.flatMap fun c => [c.target.node, c.source.node]).removeAll t.nodes.keys = [] := by
    rw [List.removeAll, List.filter_eq_nil_iff]
    intro id hid
    obtain ⟨c, hc, hid⟩ := List.mem_flatMap.mp hid
    obtain ⟨hs, ht⟩ := (h.joined c hc).mem_keys
    simp only [List.mem_cons, List.not_mem_nil, or_false] at hid
    rcases hid with rfl | rfl <;> simpa
  rw [knownNodes, List.eraseDups_append, hnone, List.eraseDups_nil, List.append_nil, eraseDups_of_nodup h.nodeKeys]

/-- The arrows of the search for circles are the connections, turned round. -/
theorem leads_feeders_iff {known : List NodeId} {m n : Nat} : Leads (t.feeders known) m n ↔
    ∃ c ∈ t.connections.values, known[m]? = some c.target.node ∧ known.idxOf? c.source.node = some n := by
  simp only [Leads, feeders, List.getElem?_toArray, List.getElem?_map, Option.map_eq_some_iff, List.size_toArray,
    List.length_map]
  constructor
  · rintro ⟨_, ⟨id, hid, rfl⟩, hmem, -⟩
    obtain ⟨c, hc, hn⟩ := List.mem_filterMap.mp hmem
    obtain ⟨hc, htarget⟩ := List.mem_filter.mp hc
    exact ⟨c, hc, by rw [hid, of_decide_eq_true htarget], hn⟩
  · rintro ⟨c, hc, hm, hn⟩
    refine ⟨_, ⟨_, hm, rfl⟩, List.mem_filterMap.mpr ⟨c, List.mem_filter.mpr ⟨hc, by simp⟩, hn⟩, ?_⟩
    obtain ⟨hlt, -⟩ := List.idxOf?_eq_some_iff.mp hn
    exact hlt

theorem WellFormed.leads_feeders (h : t.WellFormed) (hc : c ∈ t.connections.values) :
    Leads (t.feeders t.nodes.keys) (t.nodes.keys.idxOf c.target.node) (t.nodes.keys.idxOf c.source.node) := by
  obtain ⟨hs, ht⟩ := (h.joined c hc).mem_keys
  refine leads_feeders_iff.mpr ⟨c, hc, List.getElem?_idxOf ht, ?_⟩
  rw [List.idxOf?_eq_some_iff]
  refine ⟨List.idxOf_lt_length_of_mem hs, List.getElem_idxOf _, fun j hj heq => ?_⟩
  rw [← heq, h.nodeKeys.idxOf_getElem] at hj
  exact Nat.lt_irrefl j hj

theorem size_feeders (known : List NodeId) : (t.feeders known).size = known.length := by
  simp [feeders]

/-- The walk that puts the nodes of a tree in order. -/
def nodeWalk (t : Tree) : Walk :=
  walkFrom (t.feeders t.nodes.keys) (List.range (t.feeders t.nodes.keys).size)

theorem WellFormed.topologicalOrder?_eq_some_iff (h : t.WellFormed) {order : List NodeId} :
    t.topologicalOrder? = some order ↔
      t.nodeWalk.cycle = none ∧ t.nodeWalk.order.toList.filterMap (fun i => t.nodes.keys[i]?) = order := by
  have hsize : t.nodes.size = (t.feeders t.nodes.keys).size := by
    simp [size_feeders, OrderedMap.size, OrderedMap.keys]
  rw [topologicalOrder?, h.knownNodes_eq, hsize, nodeWalk]
  cases (walkFrom (t.feeders t.nodes.keys) (List.range (t.feeders t.nodes.keys).size)).cycle <;> simp

theorem WellFormed.exists_order_iff (h : t.WellFormed) :
    (∃ order, t.topologicalOrder? = some order) ↔ ∃ rank, t.Ranked rank := by
  have horder : (∃ order, t.topologicalOrder? = some order) ↔ t.nodeWalk.cycle = none := by
    simp [h.topologicalOrder?_eq_some_iff]
  rw [horder]
  constructor
  · intro hc
    obtain ⟨rank, hrank⟩ := descends_of_cycle_eq_none hc
    exact ⟨fun id => rank (t.nodes.keys.idxOf id), fun c hc => hrank _ _ (h.leads_feeders hc)⟩
  · rintro ⟨rank, hrank⟩
    have hdescends : Walk.Descends (t.feeders t.nodes.keys) fun n => (t.nodes.keys[n]?.map rank).getD 0 := by
      intro m n hleads
      obtain ⟨c, hc, hm, hn⟩ := leads_feeders_iff.mp hleads
      obtain ⟨hlt, hsource, -⟩ := List.idxOf?_eq_some_iff.mp hn
      dsimp only
      rw [hm, List.getElem?_eq_getElem hlt, hsource]
      exact hrank c hc
    exact cycle_walkFrom_eq_none hdescends _

end Tree

end Nodeflow
