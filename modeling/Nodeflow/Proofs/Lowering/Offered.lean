import Nodeflow.Proofs.Generation.Interface
import Nodeflow.Proofs.Snapshot.Links
import Nodeflow.Proofs.Tree.Offered
import Nodeflow.Proofs.Tree.Order

/-!
# Lowering trees of offered nodes

In a tree that edits have built from offered nodes, every node has a function, every connection has a
conversion if it needs one, and every input has a value. So the tree has a data graph exactly if its
connections do not run in a circle.
-/

namespace Nodeflow

open Lower

/-- What edits of offered nodes lead to, with one node for each side of the interface. -/
structure Tree.Functional (t : Tree) : Prop where
  wellFormed : t.WellFormed
  offered : ∀ n ∈ t.nodes.values, n.Offered
  arguments : (t.nodesOfType Idname.functionInput).length ≤ 1
  results : (t.nodesOfType Idname.functionOutput).length ≤ 1

namespace Lower

open Inserters Snapshot

variable {tree : Snapshot} {config : Config} {node : SnapshotNode} {d : Draft} {i j k : Nat}

/-! ## Types -/

/-- Ports that go together carry types that convert. -/
theorem convertible_of_connectsTo {s t : PortType} (h : s.connectsTo t) {source target : ValueType}
    (hs : s.valueType? = some source) (ht : t.valueType? = some target) : Convertible source target := by
  have hgeneric {u : PortType} {v : ValueType} (hu : u.valueType? = some v) : u.isGeneric = false := by
    cases u <;> first | rfl | cases hu
  rw [PortType.connectsTo, hgeneric hs, hgeneric ht] at h
  simp only [Bool.false_or, Bool.or_eq_true, Bool.and_eq_true, beq_iff_eq] at h
  rcases h with (rfl | ⟨rfl, rfl⟩) | ⟨rfl, rfl⟩
  · exact .inl (Option.some.inj (hs.symm.trans ht))
  · cases hs
    cases ht
    exact .inr rfl
  · cases hs
    cases ht
    exact .inr rfl

theorem Supplied.hasOrigin {b : DataGraphBuilder} {port : PortSpec} {s : InputSocket} {os : List OutputSocket}
    (h : Supplied b port s os) : ∃ o, b.HasOrigin s o :=
  match os, h with
  | [], ⟨_, _, _, _, _, _, ho⟩ => ⟨_, ho⟩
  | [_], hcarries => DataGraphBuilder.Carries.hasOrigin hcarries

theorem Completed.exists_stands {t : Tree} {n : Node} (hd : Completed (ofTree t) config d)
    (hn : t.nodes.values[j]? = some n) : ∃ node entry, (ofTree t).nodes[j]? = some node ∧
      d.builder.nodes[j]? = some entry ∧ Stands (ofTree t) config d node entry := by
  obtain ⟨first, hnode, -⟩ := (copies_ofTree t).node hn
  obtain ⟨entry, he, hstands⟩ := hd.represented _ _ hnode
  exact ⟨_, entry, hnode, he, hstands⟩

/-! ## Nothing is refused -/

theorem exists_inserts {n : Node} {nodes : List Node} (hc : tree.Copies nodes) (hoffered : n.Offered)
    (hn : nodes[j]? = some n) (hnode : tree.nodes[j]? = some node) : ∃ f, Inserts tree {} node f := by
  obtain ⟨hid, hin, hout⟩ := hc.sockets hn hnode
  have hparameters {sockets : List Nat} {ports : List Port} {types : List PortType}
      (hsockets : List.Forall₂ (tree.MadeFrom j) sockets ports)
      (htypes : ports.map (fun p => p.type) = types ++ [.extend])
      (hdata : ∀ type ∈ types, type.valueType?.isSome) :
      ∃ parameters, List.Forall₂ (Declares tree) sockets.dropLast parameters := by
    refine exists_forall₂ fun i hi => ?_
    obtain ⟨k, hk, hlt⟩ := exists_getElem?_of_mem_dropLast hi
    obtain ⟨p, hp, socket, hs, -, rfl⟩ := (forall₂_iff_getElem?.mp hsockets).2 hk
    have hlen := congrArg List.length htypes
    rw [List.length_map, List.length_append, List.length_singleton, ← hsockets.length_eq] at hlen
    have htype := congrArg (fun types => types[k]?) htypes
    rw [List.getElem?_map, hp, List.getElem?_append_left (by omega), Option.map_some] at htype
    obtain ⟨type, hvalue⟩ := Option.isSome_iff_exists.mp (hdata _ (List.mem_of_getElem? htype.symm))
    exact ⟨⟨socket.port.name, type⟩, socket, hs, rfl, hvalue⟩
  cases hoffered.kind with
  | operation hf hfin hfout =>
      have htypes {sockets : List Nat} {ports : List Port} {parameters : List Parameter}
          (hsockets : List.Forall₂ (tree.MadeFrom j) sockets ports)
          (h : ports.map (fun p => p.type.valueType?) = parameters.map fun p => some p.type) :
          List.Forall₂ (fun i p => HasType tree i p.type) sockets parameters := by
        rw [← List.forall₂_eq_eq_eq, List.forall₂_map_left_iff, List.forall₂_map_right_iff] at h
        refine forall₂_join hsockets.flip h fun p i parameter hi hp => ?_
        obtain ⟨socket, hs, -, rfl⟩ := hi
        exact ⟨socket, hs, hp⟩
      exact ⟨_, .builtin (hid ▸ hf) (htypes hin hfin) (htypes hout hfout)⟩
  | arguments hname hnil hports hdata =>
      obtain ⟨parameters, hp⟩ := hparameters hout hports hdata
      have hname' := hid.trans hname
      exact ⟨_, .arguments (by rw [hname']; decide) (by rw [hname']; decide) hname' hp⟩
  | results hname hnil hports hdata =>
      obtain ⟨parameters, hp⟩ := hparameters hin hports hdata
      have hname' := hid.trans hname
      exact ⟨_, .results (by rw [hname']; decide) hname' hp⟩

end Lower

namespace Tree.Functional

open Inserters Snapshot DataGraphBuilder

variable {t : Tree} {d : Draft} {i : Nat} {socket : SnapshotSocket} {s : InputSocket}

theorem exists_place_input (h : t.Functional) (hs : (ofTree t).sockets[i]? = some socket)
    (hdir : socket.port.direction = .input) : ∃ n node, ∃ k : Nat, t.nodes.values[socket.node]? = some n ∧
      (ofTree t).nodes[socket.node]? = some node ∧ node.inputs[k]? = some i ∧ n.inputs[k]? = some socket.port := by
  obtain ⟨n, node, hn, hnode, k, ⟨hi, hp⟩ | ⟨-, hp⟩⟩ := (copies_ofTree t).exists_place hs
  · exact ⟨n, node, k, hn, hnode, hi, hp⟩
  · have hout := (h.offered n (List.mem_of_getElem? hn)).outputs _ (List.mem_of_getElem? hp)
    rw [hdir] at hout
    cases hout

theorem exists_place_output (h : t.Functional) (hs : (ofTree t).sockets[i]? = some socket)
    (hdir : socket.port.direction = .output) : ∃ n node, ∃ k : Nat, t.nodes.values[socket.node]? = some n ∧
      (ofTree t).nodes[socket.node]? = some node ∧ node.outputs[k]? = some i ∧ n.outputs[k]? = some socket.port := by
  obtain ⟨n, node, hn, hnode, k, ⟨-, hp⟩ | ⟨hi, hp⟩⟩ := (copies_ofTree t).exists_place hs
  · have hin := ((h.offered n (List.mem_of_getElem? hn)).inputs _ (List.mem_of_getElem? hp)).1
    rw [hdir] at hin
    cases hin
  · exact ⟨n, node, k, hn, hnode, hi, hp⟩

theorem length_links_le (h : t.Functional) (hs : (ofTree t).sockets[i]? = some socket)
    (hin : socket.port.direction = .input) : socket.links.length ≤ 1 := by
  obtain ⟨n, node, k, hn, -, -, hp⟩ := h.exists_place_input hs hin
  have hp := List.mem_of_getElem? hp
  have hmulti := ((h.offered n (List.mem_of_getElem? hn)).inputs _ hp).2
  have hport : socket.port ∈ t.ports :=
    List.mem_flatMap.mpr ⟨n, List.mem_of_getElem? hn, List.mem_append_left _ hp⟩
  rw [links_ofTree h.wellFormed hs hin]
  exact (List.length_filterMap_le _ _).trans (h.wellFormed.single _ hport hmulti)

theorem links_eq_singleton (h : t.Functional) {c : Connection} (hc : c ∈ t.connections.values) {a : Nat}
    {source : SnapshotSocket} (hspans : Spans t c a i source socket) : socket.links = [a] := by
  have hmem := (mem_links_iff h.wellFormed hspans.targetSocket hspans.input).mpr ⟨c, hc, source, hspans⟩
  obtain ⟨b, hb⟩ := List.length_eq_one_iff.mp
    (Nat.le_antisymm (h.length_links_le hspans.targetSocket hspans.input) (List.length_pos_of_mem hmem))
  rw [hb, List.mem_singleton] at hmem
  rw [hb, hmem]

theorem sources_of_spans (h : t.Functional) {c : Connection} (hc : c ∈ t.connections.values) {a : Nat}
    {source : SnapshotSocket} (hspans : Spans t c a i source socket) {o : OutputSocket}
    (ho : d.socket? a = some (.output o)) : d.sources socket.links = [o] := by
  rw [h.links_eq_singleton hc hspans, Draft.sources, List.filterMap_cons, ho]
  rfl

/-- At most one connection leads to an input, and its other end may stand for nothing. -/
theorem sources_cases (h : t.Functional) (d : Draft) (hs : (ofTree t).sockets[i]? = some socket)
    (hin : socket.port.direction = .input) : d.sources socket.links = [] ∨
      ∃ c ∈ t.connections.values, ∃ a source o, Spans t c a i source socket ∧ d.socket? a = some (.output o) ∧
        d.sources socket.links = [o] := by
  cases hlinks : socket.links with
  | nil => exact .inl rfl
  | cons a rest =>
      obtain ⟨c, hc, source, hspans⟩ := (mem_links_iff h.wellFormed hs hin).mp (hlinks ▸ List.mem_cons_self)
      obtain rfl := (List.cons.inj (hlinks.symm.trans (h.links_eq_singleton hc hspans))).2
      cases hsources : d.sources [a] with
      | nil => exact .inl rfl
      | cons o os =>
          obtain ⟨ho, rfl⟩ := Draft.sources_singleton hsources
          exact .inr ⟨c, hc, a, source, o, hspans, ho, rfl⟩

/-- An input is linked to one source at most, and what flows there can be converted. -/
theorem linkable (h : t.Functional) (hr : Represented (ofTree t) {} d) (hsize : d.sockets.size = (ofTree t).sockets.size)
    (hb : Wiring.Numbered d.builder) (hs : (ofTree t).sockets[i]? = some socket) (hi : d.socket? i = some (.input s)) :
    Linkable d.builder s (Lower.origins d socket) := by
  have hc := copies_ofTree t
  by_cases hin : socket.isInput
  · have hdir : socket.port.direction = .input := by simpa [SnapshotSocket.isInput] using hin
    rw [Lower.origins, if_pos hin]
    rcases h.sources_cases d hs hdir with hsources | ⟨c, -, a, source, o, hspans, ho, hsources⟩
    · rw [hsources]
      trivial
    · rw [hsources]
      obtain ⟨out, hout, other, hother, hsource⟩ := hr.outputType hc hsize hb ho
      obtain ⟨type, htype, other', hother', htarget⟩ := hr.inputType hc hsize hb hi
      obtain rfl := Option.some.inj (hother.symm.trans hspans.sourceSocket)
      obtain rfl := Option.some.inj (hother'.symm.trans hs)
      have hfits := hspans.fits
      rw [PortSpec.connectsTo, Bool.and_eq_true] at hfits
      exact ⟨out, type, hout, htype, convertible_of_connectsTo hfits.2 hsource htarget⟩
  · rw [Lower.origins, if_neg hin]
    trivial

theorem not_refused (h : t.Functional) : ¬Refused (ofTree t) {} := by
  intro hrefused
  cases hrefused with
  | interface hsingle =>
      refine hsingle fun idname hid => ?_
      rw [length_nodesOfType_ofTree]
      simp only [List.mem_cons, List.not_mem_nil, or_false] at hid
      rcases hid with rfl | rfl
      · exact h.arguments
      · exact h.results
  | @node node hn hnone =>
      obtain ⟨j, hj⟩ := List.mem_iff_getElem?.mp hn
      rw [Array.getElem?_toList] at hj
      have hc := copies_ofTree t
      have hlt : j < t.nodes.values.length := hc.size ▸ (Array.getElem?_eq_some_iff.mp hj).1
      obtain ⟨f, hf⟩ := exists_inserts hc (h.offered _ (List.getElem_mem hlt)) (List.getElem?_eq_getElem hlt) hj
      exact hnone f hf
  | link hd hs hi hlinkable =>
      exact hlinkable (h.linkable hd.represented hd.size hd.typed.toNumbered hs hi)

theorem supplied (h : t.Functional) (hd : Completed (ofTree t) {} d) {n : Node} {entry : NodeEntry} {j k : Nat}
    (hn : t.nodes.values[j]? = some n) (he : d.builder.nodes[j]? = some entry) (hk : k < entry.inputCount) :
    ∃ i socket, (ofTree t).sockets[i]? = some socket ∧ socket.node = j ∧ n.inputs[k]? = some socket.port ∧
      socket.port.direction = .input ∧ d.socket? i = some (.input ⟨entry.firstInput + k⟩) ∧
        Supplied d.builder socket.port.toPortSpec ⟨entry.firstInput + k⟩ (d.sources socket.links) := by
  obtain ⟨node, entry', hnode, he', hstands⟩ := hd.exists_stands hn
  obtain rfl := Option.some.inj (he.symm.trans he')
  have hat := List.getElem?_eq_getElem (Nat.lt_of_lt_of_le hk hstands.inserts.size_le.1)
  have hi := hstands.input hat
  rw [if_pos hk] at hi
  obtain ⟨-, hsockets, -⟩ := (copies_ofTree t).sockets hn hnode
  obtain ⟨p, hp, socket, hs, hj, rfl⟩ := (forall₂_iff_getElem?.mp hsockets).2 hat
  have hin := ((h.offered n (List.mem_of_getElem? hn)).inputs _ (List.mem_of_getElem? hp)).1
  have hsupplied := hd.supplied hs hi
  rw [if_pos (by simp [SnapshotSocket.isInput, hin])] at hsupplied
  exact ⟨_, socket, hs, hj, hp, hin, hi, hsupplied⟩

theorem not_unlinked (h : t.Functional) (hd : Completed (ofTree t) {} d) : ¬Unlinked d.builder s := by
  rintro ⟨e, he, hnone⟩
  have hno (o : OutputSocket) : ¬HasOrigin d.builder s o := by
    rintro ⟨e', he', ho⟩
    obtain rfl := Option.some.inj (he.symm.trans he')
    rw [hnone] at ho
    cases ho
  obtain ⟨entry, hentry, hk, hindex⟩ := hd.typed.input_place he
  obtain rfl : s = ⟨entry.firstInput + e.position⟩ := by
    cases s
    exact congrArg InputSocket.mk hindex
  by_cases hn : e.node.index < t.nodes.values.length
  · obtain ⟨i, socket, -, -, -, -, -, hsupplied⟩ := h.supplied hd (List.getElem?_eq_getElem hn) hentry hk
    obtain ⟨o, ho⟩ := Supplied.hasOrigin hsupplied
    exact hno o ho
  · obtain ⟨o, -, ho, -⟩ := (hd.extra hentry ((copies_ofTree t).size ▸ Nat.le_of_not_lt hn)).linked e.position hk
    exact hno o ho

end Tree.Functional

end Nodeflow
