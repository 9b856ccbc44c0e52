import Nodeflow.Tree.Catalogue
import Nodeflow.Tree.Supply
import Nodeflow.Proofs.Fault
import Nodeflow.Proofs.OrderedMap
import Mathlib.Data.List.Flatten

/-!
# Edited trees

A tree that is built by edits is well-formed after each of them: every connection leads from an
output port to an input port of another node, and a port that takes one connection has no more.
What is added has identifiers that the tree does not use yet; they may have been used before.
-/

namespace Nodeflow

/-- An edit of a tree. -/
inductive Edit where
  | addNode (n : Node)
  | removeNode (id : NodeId)
  | connect (id : ConnectionId) (source target : Endpoint)
  | connectAt (id : ConnectionId) (source : NodeId) (output : Nat) (target : NodeId) (input : Nat)
  | disconnect (id : ConnectionId)
  | insertPort (node : NodeId) (id : PortId) (name : String) (type : PortType)
      (direction : Direction)
  | setDefault (node : NodeId) (input : Nat) (value : Option PortValue)

/-- What stays of a port when its default value changes. -/
def Port.outline (p : Port) : Port := { p with defaultValue := none }

namespace Tree

def ports (t : Tree) : List Port := t.nodes.values.flatMap Node.ports

def portIds (t : Tree) : List PortId := t.ports.map Port.id

def edit (t : Tree) : Edit → Except ConnectionError Tree
  | .addNode n => .ok (t.addNode n)
  | .removeNode id => .ok (t.removeNode id)
  | .connect id source target => t.connect id source target
  | .connectAt id source output target input => t.connectAt id source output target input
  | .disconnect id => .ok (t.disconnect id)
  | .insertPort node id name type direction =>
      .ok (t.modifyNode node fun n => n.insertPort id name type direction)
  | .setDefault node input value =>
      .ok (t.modifyNode node fun n =>
        n.modifyPort .input input fun p => { p with defaultValue := value })

/-- The tree after an edit, which may be refused. -/
def after (t : Tree) (e : Edit) : Tree :=
  match t.edit e with
  | .ok t' => t'
  | .error _ => t

/-- The identifiers that an edit brings along are not used in the tree. -/
def Fresh (t : Tree) : Edit → Prop
  | .addNode n =>
      t.nodes.get? n.id = none ∧ (n.ports.map Port.id).Nodup ∧ ∀ p ∈ n.ports, p.id ∉ t.portIds
  | .connect id _ _ | .connectAt id .. => t.connections.get? id = none
  | .insertPort _ id .. => id ∉ t.portIds
  | _ => True

/-- The trees that edits of some kind lead to. -/
inductive Edited (allowed : Edit → Prop) : Tree → Prop
  | new (name : String) : Edited allowed { name }
  | after {t : Tree} {e : Edit} (h : Edited allowed t) (he : allowed e) (hfresh : t.Fresh e) :
      Edited allowed (t.after e)

/-- An endpoint names a node of the tree and a port of that node. -/
def Holds (t : Tree) (e : Endpoint) (p : Port) : Prop :=
  ∃ n, t.nodes.get? e.node = some n ∧ p ∈ n.ports ∧ p.id = e.port

/-- A connection leads from an output port to an input port of another node. -/
structure Joins (t : Tree) (c : Connection) : Prop where
  apart : c.source.node ≠ c.target.node
  compatible : ∃ p q, t.Holds c.source p ∧ t.Holds c.target q ∧
    p.direction = .output ∧ q.direction = .input ∧ p.connectsTo q.toPortSpec

/-- What every edited tree satisfies. -/
structure WellFormed (t : Tree) : Prop where
  nodeKeys : t.nodes.keys.Nodup
  connectionKeys : t.connections.keys.Nodup
  portIds : t.portIds.Nodup
  node_id : ∀ {id n}, t.nodes.get? id = some n → n.id = id
  connection_id : ∀ {id c}, t.connections.get? id = some c → c.id = id
  joined : ∀ c ∈ t.connections.values, t.Joins c
  single : ∀ p ∈ t.ports, p.multiConnect = false → (t.connectionsTo p.id).length ≤ 1

variable {t t' : Tree} {e : Endpoint} {p q : Port} {c : Connection}

theorem mem_ports_iff (h : t.nodes.keys.Nodup) :
    p ∈ t.ports ↔ ∃ id n, t.nodes.get? id = some n ∧ p ∈ n.ports := by
  rw [ports, List.mem_flatMap]
  constructor
  · rintro ⟨n, hn, hp⟩
    obtain ⟨id, hid⟩ := OrderedMap.exists_get? h hn
    exact ⟨id, n, hid, hp⟩
  · rintro ⟨id, n, hid, hp⟩
    exact ⟨n, OrderedMap.mem_values_of_get? hid, hp⟩

theorem Holds.mem_ports (h : t.Holds e p) : p ∈ t.ports := by
  obtain ⟨n, hn, hp, -⟩ := h
  exact List.mem_flatMap.mpr ⟨n, OrderedMap.mem_values_of_get? hn, hp⟩

theorem Holds.id_eq (h : t.Holds e p) : p.id = e.port := by
  obtain ⟨-, -, -, hid⟩ := h
  exact hid

theorem Holds.mem_portIds (h : t.Holds e p) : e.port ∈ t.portIds :=
  List.mem_map.mpr ⟨p, h.mem_ports, h.id_eq⟩

theorem mem_connectionsTo {id : PortId} (h : c ∈ t.connectionsTo id) :
    c ∈ t.connections.values ∧ c.target.port = id := by
  simpa [connectionsTo] using h

namespace WellFormed

theorem eq_of_id (h : t.WellFormed) (hp : p ∈ t.ports) (hq : q ∈ t.ports) (hid : p.id = q.id) :
    p = q :=
  List.inj_on_of_nodup_map h.portIds hp hq hid

theorem connectionsTo_eq_nil (h : t.WellFormed) {id : PortId} (hid : id ∉ t.portIds) :
    t.connectionsTo id = [] := by
  refine List.eq_nil_iff_forall_not_mem.mpr fun c hc => hid ?_
  obtain ⟨hin, rfl⟩ := mem_connectionsTo hc
  obtain ⟨-, q, -, hq, -⟩ := (h.joined c hin).compatible
  exact hq.mem_portIds

theorem new (name : String) : ({ name } : Tree).WellFormed where
  nodeKeys := List.nodup_nil
  connectionKeys := List.nodup_nil
  portIds := List.nodup_nil
  node_id h := by simp [OrderedMap.get?, OrderedMap.empty] at h
  connection_id h := by simp [OrderedMap.get?, OrderedMap.empty] at h
  joined c h := by simp [OrderedMap.values, OrderedMap.empty] at h
  single p h := by simp [Tree.ports, OrderedMap.values, OrderedMap.empty] at h

/-! ## One lemma for each edit -/

/-- With more nodes, what held before still does. -/
theorem addNode (h : t.WellFormed) {n : Node} (hfresh : t.Fresh (.addNode n)) :
    (t.addNode n).WellFormed := by
  obtain ⟨hid, hports, hnew⟩ := hfresh
  have hget {id : NodeId} {m : Node} : (t.addNode n).nodes.get? id = some m ↔
      t.nodes.get? id = some m ∨ id = n.id ∧ m = n := OrderedMap.get?_insert_iff h.nodeKeys hid
  have hall : (t.addNode n).ports = t.ports ++ n.ports := by
    rw [Tree.ports, Tree.addNode, OrderedMap.values_insert hid, List.flatMap_append, Tree.ports,
      List.flatMap_singleton]
  have hholds {e : Endpoint} {p : Port} (hp : t.Holds e p) : (t.addNode n).Holds e p := by
    obtain ⟨m, hm, hp⟩ := hp
    exact ⟨m, hget.mpr (.inl hm), hp⟩
  refine ⟨OrderedMap.nodup_insert h.nodeKeys hid, h.connectionKeys, ?_, ?_, h.connection_id, ?_, ?_⟩
  · rw [Tree.portIds, hall, List.map_append]
    refine h.portIds.append hports fun id hold hmem => ?_
    obtain ⟨p, hp, rfl⟩ := List.mem_map.mp hmem
    exact hnew p hp hold
  · intro id m hm
    rcases hget.mp hm with hm | ⟨rfl, rfl⟩
    · exact h.node_id hm
    · rfl
  · intro c hc
    obtain ⟨happart, p, q, hp, hq, hjoin⟩ := h.joined c hc
    exact ⟨happart, p, q, hholds hp, hholds hq, hjoin⟩
  · intro p hp hsingle
    rw [hall, List.mem_append] at hp
    rcases hp with hp | hp
    · exact h.single p hp hsingle
    · change (t.connectionsTo p.id).length ≤ 1
      rw [h.connectionsTo_eq_nil (hnew p hp)]
      exact Nat.zero_le 1

/-- With fewer connections, what held before still does. -/
theorem of_sublist (h : t.WellFormed) {connections : OrderedMap ConnectionId Connection}
    (hkeys : connections.keys.Nodup)
    (hget : ∀ {id c}, connections.get? id = some c → t.connections.get? id = some c)
    (hsub : connections.values.Sublist t.connections.values) :
    ({ t with connections } : Tree).WellFormed where
  nodeKeys := h.nodeKeys
  connectionKeys := hkeys
  portIds := h.portIds
  node_id := h.node_id
  connection_id hc := h.connection_id (hget hc)
  joined c hc := ⟨(h.joined c (hsub.mem hc)).apart, (h.joined c (hsub.mem hc)).compatible⟩
  single p hp hsingle := Nat.le_trans (hsub.filter _).length_le (h.single p hp hsingle)

theorem disconnect (h : t.WellFormed) (id : ConnectionId) : (t.disconnect id).WellFormed :=
  h.of_sublist (OrderedMap.nodup_erase h.connectionKeys id)
    (fun hc => ((OrderedMap.get?_erase_iff h.connectionKeys).mp hc).1)
    (OrderedMap.values_erase_sublist _ _)

/-- A node takes its connections along, so those that stay keep their ports. -/
theorem removeNode (h : t.WellFormed) (id : NodeId) : (t.removeNode id).WellFormed := by
  have hrest : ({ t with connections := t.connections.filter fun c => !c.involvesNode id } :
      Tree).WellFormed :=
    h.of_sublist (OrderedMap.nodup_filter h.connectionKeys _)
      (fun hc => ((OrderedMap.get?_filter_iff h.connectionKeys).mp hc).1)
      (by rw [OrderedMap.values_filter]; exact List.filter_sublist)
  have hholds {e : Endpoint} {p : Port} (hp : t.Holds e p) (he : e.node ≠ id) :
      (t.removeNode id).Holds e p := by
    obtain ⟨m, hm, hp⟩ := hp
    exact ⟨m, (OrderedMap.get?_erase_iff h.nodeKeys).mpr ⟨hm, he⟩, hp⟩
  have hports : (t.removeNode id).ports.Sublist t.ports :=
    (OrderedMap.values_erase_sublist _ _).flatMap _
  refine ⟨OrderedMap.nodup_erase h.nodeKeys id, hrest.connectionKeys, h.portIds.sublist (hports.map _),
    fun hm => h.node_id ((OrderedMap.get?_erase_iff h.nodeKeys).mp hm).1, hrest.connection_id, ?_,
    fun p hp => hrest.single p (hports.mem hp)⟩
  intro c hc
  rw [Tree.removeNode, OrderedMap.values_filter, List.mem_filter] at hc
  obtain ⟨hc, hinvolved⟩ := hc
  simp only [Connection.involvesNode, Bool.not_eq_true', Bool.or_eq_false_iff, beq_eq_false_iff_ne]
    at hinvolved
  obtain ⟨happart, p, q, hp, hq, hjoin⟩ := h.joined c hc
  exact ⟨happart, p, q, hholds hp hinvolved.1, hholds hq hinvolved.2, hjoin⟩

end WellFormed

theorem node_eq_ok_iff {id : NodeId} {n : Node} : t.node id = .ok n ↔ t.nodes.get? id = some n := by
  unfold node
  cases t.nodes.get? id <;> simp

theorem portOf_eq_ok_iff {n : Node} {id : PortId} : portOf n id = .ok p ↔ n.port? id = some p := by
  unfold portOf
  cases n.port? id <;> simp

/-- The ways a connection can come about. -/
theorem connect_eq_ok_iff {id : ConnectionId} {source target : Endpoint} :
    t.connect id source target = .ok t' ↔
      ∃ n m p q, t.nodes.get? source.node = some n ∧ t.nodes.get? target.node = some m ∧
        n.port? source.port = some p ∧ m.port? target.port = some q ∧
        p.direction = .output ∧ q.direction = .input ∧ p.connectsTo q.toPortSpec ∧
        (q.multiConnect = false → t.isTaken target.port = false) ∧ source.node ≠ target.node ∧
        t' = { t with connections := t.connections.insert id ⟨id, source, target⟩ } := by
  unfold connect
  simp only [bind_eq_ok_iff, node_eq_ok_iff, portOf_eq_ok_iff, unless_throw_eq_ok_iff, pure_eq_ok_iff]
  constructor
  · rintro ⟨n, hn, m, hm, p, hp, q, hq, hfits, hfree, happart, rfl⟩
    simp only [Bool.or_eq_true, decide_eq_true_eq, Bool.not_eq_true', not_or, not_not,
      Bool.not_eq_false] at hfits
    refine ⟨n, m, p, q, hn, hm, hp, hq, hfits.1.1, hfits.1.2, hfits.2, fun hq => ?_, happart, rfl⟩
    simpa [hq] using hfree
  · rintro ⟨n, m, p, q, hn, hm, hp, hq, hout, hin, hfits, hfree, happart, rfl⟩
    refine ⟨n, hn, m, hm, p, hp, q, hq, by simp [hout, hin, hfits], ?_, happart, rfl⟩
    cases hmulti : q.multiConnect
    · simp [hfree hmulti]
    · simp

theorem Holds.of_port? {n : Node} (hn : t.nodes.get? e.node = some n) (hp : n.port? e.port = some p) :
    t.Holds e p :=
  ⟨n, hn, List.mem_of_find?_eq_some hp, by simpa using List.find?_some hp⟩

namespace WellFormed

/-- Only a port that takes several connections gets another one. -/
theorem connect (h : t.WellFormed) {id : ConnectionId} {source target : Endpoint}
    (hfresh : t.connections.get? id = none) (hok : t.connect id source target = .ok t') :
    t'.WellFormed := by
  obtain ⟨n, m, p, q, hn, hm, hp, hq, hout, hin, hfits, hfree, happart, rfl⟩ :=
    connect_eq_ok_iff.mp hok
  have hsource : t.Holds source p := .of_port? hn hp
  have htarget : t.Holds target q := .of_port? hm hq
  refine ⟨h.nodeKeys, OrderedMap.nodup_insert h.connectionKeys hfresh, h.portIds, h.node_id, ?_, ?_, ?_⟩
  · intro id' c hc
    rcases (OrderedMap.get?_insert_iff h.connectionKeys hfresh).mp hc with hc | ⟨rfl, rfl⟩
    · exact h.connection_id hc
    · rfl
  · intro c hc
    rw [OrderedMap.values_insert hfresh, List.mem_append, List.mem_singleton] at hc
    rcases hc with hc | rfl
    · exact ⟨(h.joined c hc).apart, (h.joined c hc).compatible⟩
    · exact ⟨happart, p, q, hsource, htarget, hout, hin, hfits⟩
  · intro p' hp' hsingle
    have hold := h.single p' hp' hsingle
    rw [Tree.connectionsTo, OrderedMap.values_insert hfresh, List.filter_append]
    change (t.connectionsTo p'.id ++ _).length ≤ 1
    by_cases hid : target.port = p'.id
    · -- the port was free, so the new connection is its only one
      obtain rfl : q = p' := h.eq_of_id htarget.mem_ports hp' (htarget.id_eq.trans hid)
      have hnone : t.connectionsTo q.id = [] := by
        refine List.filter_eq_nil_iff.mpr fun c hc htaken => ?_
        have := hfree hsingle
        rw [isTaken, OrderedMap.any_eq_false_iff] at this
        exact Bool.false_ne_true ((this c hc).symm.trans (by simpa [hid] using htaken))
      simp [hnone, hid]
    · simpa [hid] using hold

/-! A node may be given further ports, and its ports other default values. -/

variable {id : NodeId} {n : Node} {change : Node → Node} {new : List Port}

theorem portIds_modifyNode_perm (h : t.WellFormed) (hn : t.nodes.get? id = some n)
    (hports : ((change n).ports.map Port.outline).Perm ((new ++ n.ports).map Port.outline)) :
    (t.modifyNode id change).portIds.Perm (new.map Port.id ++ t.portIds) := by
  obtain ⟨before, after, hold, hchanged⟩ := OrderedMap.exists_entries_modify h.nodeKeys hn change
  have hids := hports.map Port.id
  simp only [List.map_map, List.map_append] at hids
  simp only [Tree.portIds, Tree.ports, OrderedMap.values, Tree.modifyNode, hold, hchanged,
    List.map_append, List.map_cons, List.flatMap_append, List.flatMap_cons]
  refine ((hids.append_right _).append_left _).trans ?_
  rw [List.append_assoc]
  exact List.perm_append_comm_assoc _ _ _

theorem nodes_modifyNode_get?_iff (h : t.WellFormed) (hn : t.nodes.get? id = some n) {id' : NodeId}
    {m : Node} : (t.modifyNode id change).nodes.get? id' = some m ↔
      id' = id ∧ m = change n ∨ id' ≠ id ∧ t.nodes.get? id' = some m :=
  OrderedMap.get?_modify_iff h.nodeKeys hn

/-- A port after the change is one of before, up to its default value, or a further one. -/
theorem exists_outline_of_mem_modifyNode (h : t.WellFormed) (hn : t.nodes.get? id = some n)
    (hports : ((change n).ports.map Port.outline).Perm ((new ++ n.ports).map Port.outline))
    (hp : p ∈ (t.modifyNode id change).ports) : ∃ q ∈ new ++ t.ports, q.outline = p.outline := by
  obtain ⟨id', m, hm, hp⟩ := (mem_ports_iff (OrderedMap.nodup_modify h.nodeKeys id change)).mp hp
  rcases (h.nodes_modifyNode_get?_iff hn).mp hm with ⟨rfl, rfl⟩ | ⟨-, hm⟩
  · obtain ⟨q, hq, hqp⟩ := List.mem_map.mp (hports.mem_iff.mp (List.mem_map_of_mem hp))
    refine ⟨q, List.mem_append.mpr ((List.mem_append.mp hq).imp_right fun hq => ?_), hqp⟩
    exact (mem_ports_iff h.nodeKeys).mpr ⟨id', n, hn, hq⟩
  · exact ⟨p, List.mem_append_right new ((mem_ports_iff h.nodeKeys).mpr ⟨id', m, hm, hp⟩), rfl⟩

theorem exists_holds_modifyNode (h : t.WellFormed) (hn : t.nodes.get? id = some n)
    (hports : ((change n).ports.map Port.outline).Perm ((new ++ n.ports).map Port.outline))
    (hp : t.Holds e p) : ∃ q, (t.modifyNode id change).Holds e q ∧ q.outline = p.outline := by
  obtain ⟨m, hm, hp, hid⟩ := hp
  by_cases he : e.node = id
  · obtain rfl : n = m := Option.some.inj (hn.symm.trans (he ▸ hm))
    have hq := hports.mem_iff.mpr (List.mem_map_of_mem (List.mem_append_right new hp))
    obtain ⟨q, hq, hqp⟩ := List.mem_map.mp hq
    exact ⟨q, ⟨_, (h.nodes_modifyNode_get?_iff hn).mpr (.inl ⟨he, rfl⟩), hq,
      (congrArg Port.id hqp).trans hid⟩, hqp⟩
  · exact ⟨p, ⟨m, (h.nodes_modifyNode_get?_iff hn).mpr (.inr ⟨he, hm⟩), hp, hid⟩, rfl⟩

theorem modifyNode (h : t.WellFormed) (new : List Port) (hid : ∀ n, (change n).id = n.id)
    (hnew : (new.map Port.id).Nodup) (hfresh : ∀ p ∈ new, p.id ∉ t.portIds)
    (hports : ∀ n, ((change n).ports.map Port.outline).Perm ((new ++ n.ports).map Port.outline)) :
    (t.modifyNode id change).WellFormed := by
  cases hn : t.nodes.get? id with
  | none =>
      rw [Tree.modifyNode, OrderedMap.modify_eq_self hn]
      exact h
  | some n =>
      refine ⟨OrderedMap.nodup_modify h.nodeKeys id change, h.connectionKeys, ?_, ?_, h.connection_id, ?_,
        ?_⟩
      · refine (h.portIds_modifyNode_perm hn (hports n)).nodup_iff.mpr
          (hnew.append h.portIds fun id' hin hused => ?_)
        obtain ⟨p, hp, rfl⟩ := List.mem_map.mp hin
        exact hfresh p hp hused
      · intro id' m hm
        rcases (h.nodes_modifyNode_get?_iff hn).mp hm with ⟨rfl, rfl⟩ | ⟨-, hm⟩
        · exact (hid n).trans (h.node_id hn)
        · exact h.node_id hm
      · intro c hc
        obtain ⟨happart, p, q, hp, hq, hout, hin, hfits⟩ := h.joined c hc
        obtain ⟨p', hp', hpp⟩ := h.exists_holds_modifyNode hn (hports n) hp
        obtain ⟨q', hq', hqq⟩ := h.exists_holds_modifyNode hn (hports n) hq
        refine ⟨happart, p', q', hp', hq', (congrArg (·.direction) hpp).trans hout,
          (congrArg (·.direction) hqq).trans hin, ?_⟩
        change p'.outline.connectsTo q'.outline.toPortSpec
        rw [hpp, hqq]
        exact hfits
      · intro p hp hsingle
        change (t.connectionsTo p.id).length ≤ 1
        obtain ⟨q, hq, hqp⟩ := h.exists_outline_of_mem_modifyNode hn (hports n) hp
        rw [show p.id = q.id from (congrArg Port.id hqp).symm]
        rcases List.mem_append.mp hq with hq | hq
        · rw [h.connectionsTo_eq_nil (hfresh q hq)]
          exact Nat.zero_le 1
        · exact h.single q hq ((congrArg (·.multiConnect) hqp).trans hsingle)

end WellFormed

/-! ## Changes of ports -/

theorem insertPort_perm {α : Type} (type : α → PortType) (port : α) (ports : List α) :
    (Nodeflow.insertPort type port ports).Perm (port :: ports) := by
  fun_induction Nodeflow.insertPort type port ports with
  | case1 => exact .refl _
  | case2 last _ => exact .refl _
  | case3 last _ => exact .swap _ _ _
  | case4 first rest _ ih => exact (ih.cons first).trans (.swap _ _ _)

theorem map_outline_modify (ports : List Port) (position : Nat) (value : Option PortValue) :
    (ports.modify position fun p => { p with defaultValue := value }).map Port.outline =
      ports.map Port.outline := by
  induction ports generalizing position with
  | nil => cases position <;> rfl
  | cons p ports ih =>
      cases position with
      | zero => rfl
      | succ position => simp [ih]

theorem WellFormed.insertPort (h : t.WellFormed) (node : NodeId) {id : PortId} (name : String)
    (type : PortType) (direction : Direction) (hfresh : id ∉ t.portIds) :
    (t.modifyNode node fun n => n.insertPort id name type direction).WellFormed := by
  refine h.modifyNode [⟨.plain name type direction, id⟩] (fun n => ?_) (by simp)
    (by simpa using hfresh) fun n => List.Perm.map _ ?_
  · cases direction <;> rfl
  · cases direction with
    | input => exact (insertPort_perm _ _ _).append_right _
    | output =>
        exact ((insertPort_perm _ _ _).append_left _).trans List.perm_middle

theorem WellFormed.setDefault (h : t.WellFormed) (node : NodeId) (input : Nat)
    (value : Option PortValue) :
    (t.modifyNode node fun n =>
      n.modifyPort .input input fun p => { p with defaultValue := value }).WellFormed := by
  refine h.modifyNode [] (fun n => rfl) List.nodup_nil (by simp) fun n => .of_eq ?_
  simp only [Node.modifyPort, Node.ports, List.map_append, map_outline_modify, List.nil_append]

/-! ## Runs of edits -/

/-- What an edit makes of a tree. -/
inductive Outcome (t : Tree) : Edit → Tree → Prop
  | refused (e : Edit) : Outcome t e t
  | addNode (n : Node) : Outcome t (.addNode n) (t.addNode n)
  | removeNode (id : NodeId) : Outcome t (.removeNode id) (t.removeNode id)
  | connect {id : ConnectionId} {source target : Endpoint} {t' : Tree} (h : t.connect id source target = .ok t') :
      Outcome t (.connect id source target) t'
  | connectAt {id : ConnectionId} {source target : Endpoint} {t' : Tree} (output input : Nat)
      (h : t.connect id source target = .ok t') : Outcome t (.connectAt id source.node output target.node input) t'
  | disconnect (id : ConnectionId) : Outcome t (.disconnect id) (t.disconnect id)
  | insertPort (node : NodeId) (id : PortId) (name : String) (type : PortType) (direction : Direction) :
      Outcome t (.insertPort node id name type direction)
        (t.modifyNode node fun n => n.insertPort id name type direction)
  | setDefault (node : NodeId) (input : Nat) (value : Option PortValue) :
      Outcome t (.setDefault node input value)
        (t.modifyNode node fun n => n.modifyPort .input input fun p => { p with defaultValue := value })

theorem outcome_after (t : Tree) (e : Edit) : t.Outcome e (t.after e) := by
  cases hok : t.edit e with
  | error _ =>
      rw [Tree.after, hok]
      exact .refused e
  | ok t' =>
      rw [show t.after e = t' by rw [Tree.after, hok]]
      cases e with
      | addNode n =>
          cases hok
          exact .addNode n
      | removeNode id =>
          cases hok
          exact .removeNode id
      | connect id source target => exact .connect hok
      | connectAt id source output target input =>
          simp only [edit, connectAt, bind_eq_ok_iff] at hok
          obtain ⟨_, _, _, _, _, _, _, _, hok⟩ := hok
          exact Outcome.connectAt output input hok
      | disconnect id =>
          cases hok
          exact .disconnect id
      | insertPort node id name type direction =>
          cases hok
          exact .insertPort node id name type direction
      | setDefault node input value =>
          cases hok
          exact .setDefault node input value

/-- An edit keeps a tree well-formed, whether it is refused or not. -/
theorem WellFormed.after (h : t.WellFormed) {e : Edit} (hfresh : t.Fresh e) : (t.after e).WellFormed := by
  have houtcome := t.outcome_after e
  generalize t.after e = t' at houtcome ⊢
  cases houtcome with
  | refused => exact h
  | addNode n => exact h.addNode hfresh
  | removeNode id => exact h.removeNode id
  | connect hok => exact h.connect hfresh hok
  | connectAt _ _ hok => exact h.connect hfresh hok
  | disconnect id => exact h.disconnect id
  | insertPort node id name type direction => exact h.insertPort node name type direction hfresh
  | setDefault node input value => exact h.setDefault node input value

theorem Edited.wellFormed {allowed : Edit → Prop} (h : Edited allowed t) : t.WellFormed := by
  induction h with
  | new name => exact .new name
  | after _ _ hfresh ih => exact ih.after hfresh

/-- Edits of any kind lead to well-formed trees only, and a refused edit changes nothing. -/
theorem edited_is_wellFormed {allowed : Edit → Prop} (h : Edited allowed t) :
    t.WellFormed ∧ ∀ e refusal, t.edit e = .error refusal → t.after e = t := by
  refine ⟨h.wellFormed, fun e refusal he => ?_⟩
  rw [Tree.after, he]

/-! An input that is taken refuses another connection. -/

instance (t : Tree) : DecidablePred t.Fresh
  | .addNode n => inferInstanceAs (Decidable
      (t.nodes.get? n.id = none ∧ (n.ports.map Port.id).Nodup ∧ ∀ p ∈ n.ports, p.id ∉ t.portIds))
  | .connect id _ _ => inferInstanceAs (Decidable (t.connections.get? id = none))
  | .connectAt id .. => inferInstanceAs (Decidable (t.connections.get? id = none))
  | .insertPort _ id .. => inferInstanceAs (Decidable (id ∉ t.portIds))
  | .removeNode _ | .disconnect _ | .setDefault .. => .isTrue trivial

def sumNode (number : Nat) : Node :=
  (Catalogue.arithmetic Idname.addFloats "Add" "Add two floats").instantiate (Supply.nodeId number)
    fun i => Supply.portId (3 * number + i)

/-- The sum of a sum and something. -/
def sumOfSum : Tree :=
  ((({ name := "sum" } : Tree).after (.addNode (sumNode 0))).after (.addNode (sumNode 1))).after
    (.connectAt (Supply.connectionId 0) (Supply.nodeId 0) 0 (Supply.nodeId 1) 0)

/-- A second connection to the same input. -/
def secondSummand : Edit :=
  .connectAt (Supply.connectionId 1) (Supply.nodeId 0) 0 (Supply.nodeId 1) 0

theorem edited_sumOfSum : Edited (fun _ => True) sumOfSum :=
  (((Edited.new "sum").after trivial (by decide +kernel)).after trivial (by decide +kernel)).after trivial
    (by decide +kernel)

theorem edited_is_wellFormed_sumOfSum : Edited (fun _ => True) sumOfSum ∧ sumOfSum.connections.size = 1 ∧
    sumOfSum.WellFormed ∧
    sumOfSum.edit secondSummand = .error (.portAlreadyConnected (Supply.portId 3)) ∧
    sumOfSum.after secondSummand = sumOfSum := by
  have hrefused : sumOfSum.edit secondSummand = .error (.portAlreadyConnected (Supply.portId 3)) := by
    with_unfolding_all rfl
  exact ⟨edited_sumOfSum, by decide +kernel, (edited_is_wellFormed edited_sumOfSum).1, hrefused,
    (edited_is_wellFormed edited_sumOfSum).2 _ _ hrefused⟩

end Tree

end Nodeflow
