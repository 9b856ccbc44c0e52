import Nodeflow.Proofs.Snapshot.Sockets
import Nodeflow.Proofs.Tree.Editing

/-!
# Links of snapshots

A socket has the links of the connections at its port, in order, as far as both ports are known. In
the snapshot of a well-formed tree, the links of an input are the connections that lead to its port.
-/

namespace Nodeflow

namespace Snapshot

variable {t : Tree} {s : Snapshot} {a i : Nat} {source socket : SnapshotSocket} {c : Connection} {port : PortId}

/-! ## Sockets of ports -/

theorem exists_of_socketBefore? {bound : Nat} (h : s.socketBefore? port bound = some i) :
    ∃ socket, s.sockets[i]? = some socket ∧ socket.port.id = port := by
  induction bound with
  | zero => cases h
  | succ j ih =>
      rw [socketBefore?] at h
      split at h
      · rename_i hany
        cases h
        cases hs : s.sockets[i]? with
        | none => simp [hs] at hany
        | some socket => exact ⟨socket, rfl, by simpa [hs] using hany⟩
      · exact ih h

theorem exists_socketBefore? {bound : Nat} (hs : s.sockets[i]? = some socket) (hi : i < bound) :
    ∃ j, s.socketBefore? socket.port.id bound = some j := by
  induction bound with
  | zero => exact absurd hi (Nat.not_lt_zero i)
  | succ j ih =>
      rw [socketBefore?]
      by_cases hj : i = j
      · exact ⟨j, if_pos (by simp [← hj, hs])⟩
      · obtain ⟨k, hk⟩ := ih (by omega)
        split
        · exact ⟨j, rfl⟩
        · exact ⟨k, hk⟩

theorem map_id_sockets (t : Tree) : (ofTree t).sockets.toList.map (fun socket => socket.port.id) = t.portIds := by
  rw [Tree.portIds, Tree.ports, ← map_snd_owners_ofTree, owners, List.map_map, List.map_map]
  rfl

theorem socket_unique (h : t.portIds.Nodup) (ha : (ofTree t).sockets[a]? = some source)
    (hi : (ofTree t).sockets[i]? = some socket) (hid : source.port.id = socket.port.id) : a = i := by
  rw [← map_id_sockets] at h
  have hlt : a < ((ofTree t).sockets.toList.map fun socket => socket.port.id).length := by
    simpa using (Array.getElem?_eq_some_iff.mp ha).1
  exact (List.getElem?_inj hlt h).mp (by simp [ha, hi, hid])

theorem socketOf?_eq (h : t.portIds.Nodup) (hs : (ofTree t).sockets[i]? = some socket) :
    (ofTree t).socketOf? socket.port.id = some i := by
  obtain ⟨j, hj⟩ := exists_socketBefore? hs (Array.getElem?_eq_some_iff.mp hs).1
  obtain ⟨other, hother, hid⟩ := exists_of_socketBefore? hj
  rw [socketOf?, hj, socket_unique h hother hs hid]

/-! ## The links of a socket -/

/-- Links leave sockets where they are, and a socket has the other ends of the links at it. -/
theorem getElem?_ofTree (t : Tree) (i : Nat) : (ofTree t).sockets[i]? = (unlinked t).sockets[i]?.map fun e =>
    { e with links := e.links ++
      (t.connections.values.filterMap fun c => (ofTree t).ends (c.source.port, c.target.port)).flatMap (added i) } := by
  obtain ⟨-, -, hlinks⟩ := (unlinked t).addLinks_snd
    (t.connections.values.map fun c => (c.source.port, c.target.port))
  have hends : (unlinked t).ends = (ofTree t).ends := (funext (ends_of_eq (owners_ofTree t))).symm
  have hi := hlinks i
  rwa [hends, List.filterMap_map] at hi

theorem links_foldl_addNode (nodes : List Node) {s : Snapshot} (hs : ∀ socket ∈ s.sockets.toList, socket.links = []) :
    ∀ socket ∈ (nodes.foldl addNode s).sockets.toList, socket.links = [] := by
  induction nodes generalizing s with
  | nil => exact hs
  | cons n nodes ih =>
      refine ih fun socket hmem => ?_
      simp only [addNode, socketsFrom, Array.toList_append, List.mem_append, List.mem_map] at hmem
      rcases hmem with (hmem | ⟨_, -, rfl⟩) | ⟨_, -, rfl⟩
      · exact hs socket hmem
      · rfl
      · rfl

theorem links_eq (hs : (ofTree t).sockets[i]? = some socket) : socket.links =
    (t.connections.values.filterMap fun c => (ofTree t).ends (c.source.port, c.target.port)).flatMap (added i) := by
  rw [getElem?_ofTree, Option.map_eq_some_iff] at hs
  obtain ⟨first, hfirst, rfl⟩ := hs
  have hnil : first.links = [] := by
    refine links_foldl_addNode t.nodes.values (s := { name := t.name }) (by simp) first ?_
    exact Array.mem_toList_iff.mpr (Array.mem_of_getElem? hfirst)
  rw [hnil, List.nil_append]

end Snapshot

namespace Tree.WellFormed

open Snapshot

variable {t : Tree} {a i : Nat} {source socket : SnapshotSocket} {c : Connection} {e : Endpoint} {p : Port}

theorem socket_unique (h : t.WellFormed) (ha : (ofTree t).sockets[a]? = some source)
    (hi : (ofTree t).sockets[i]? = some socket) (hid : source.port.id = socket.port.id) : a = i :=
  Snapshot.socket_unique h.portIds ha hi hid

theorem socketOf?_eq (h : t.WellFormed) (hs : (ofTree t).sockets[i]? = some socket) :
    (ofTree t).socketOf? socket.port.id = some i :=
  Snapshot.socketOf?_eq h.portIds hs

theorem exists_socket_of_holds (h : t.WellFormed) (hp : t.Holds e p) : ∃ i socket n,
    (ofTree t).socketOf? e.port = some i ∧ (ofTree t).sockets[i]? = some socket ∧ socket.port = p ∧
      t.nodes.values[socket.node]? = some n ∧ n.id = e.node := by
  obtain ⟨n, hn, hmem, hid⟩ := hp
  obtain ⟨j, hj⟩ := List.mem_iff_getElem?.mp (OrderedMap.mem_values_of_get? hn)
  obtain ⟨k, hk⟩ := List.mem_iff_getElem?.mp hmem
  obtain ⟨first, -, -, hports⟩ := (copies_ofTree t).node hj
  obtain ⟨socket, hs, rfl, rfl⟩ := Snapshot.exists_socket (hports hk)
  exact ⟨first + k, socket, n, hid ▸ h.socketOf?_eq hs, hs, rfl, hj, h.node_id hn⟩

end Tree.WellFormed

namespace Snapshot

variable {t : Tree} {a i : Nat} {source socket : SnapshotSocket} {c : Connection}

/-! ## Links of connections -/

/-- A connection leads from one socket of the snapshot to another. -/
structure Spans (t : Tree) (c : Connection) (a i : Nat) (source socket : SnapshotSocket) : Prop where
  sourceSocket : (ofTree t).sockets[a]? = some source
  targetSocket : (ofTree t).sockets[i]? = some socket
  sourcePort : source.port.id = c.source.port
  targetPort : socket.port.id = c.target.port
  holds : t.Holds c.source source.port
  sourceNode : ∃ n, t.nodes.values[source.node]? = some n ∧ n.id = c.source.node
  targetNode : ∃ n, t.nodes.values[socket.node]? = some n ∧ n.id = c.target.node
  output : source.port.direction = .output
  input : socket.port.direction = .input
  fits : source.port.connectsTo socket.port.toPortSpec

theorem exists_spans (h : t.WellFormed) (hc : t.Joins c) : ∃ a i source socket, Spans t c a i source socket := by
  obtain ⟨p, q, hp, hq, hout, hin, hfits⟩ := hc.compatible
  obtain ⟨a, source, n, -, ha, rfl, hn⟩ := h.exists_socket_of_holds hp
  obtain ⟨i, socket, m, -, hi, rfl, hm⟩ := h.exists_socket_of_holds hq
  exact ⟨a, i, source, socket, ha, hi, hp.id_eq, hq.id_eq, hp, ⟨n, hn⟩, ⟨m, hm⟩, hout, hin, hfits⟩

theorem Spans.ends_eq (hs : Spans t c a i source socket) (h : t.WellFormed) :
    (ofTree t).ends (c.source.port, c.target.port) = some (a, i) := by
  rw [ends, ← hs.sourcePort, ← hs.targetPort, h.socketOf?_eq hs.sourceSocket, h.socketOf?_eq hs.targetSocket]
  rfl

theorem flatMap_added (h : t.WellFormed) (hs : (ofTree t).sockets[i]? = some socket)
    (hin : socket.port.direction = .input) {cs : List Connection} (hcs : ∀ c ∈ cs, t.Joins c) :
    (cs.filterMap fun c => (ofTree t).ends (c.source.port, c.target.port)).flatMap (added i) =
      (cs.filter fun c => c.target.port == socket.port.id).filterMap fun c =>
        (ofTree t).socketOf? c.source.port := by
  induction cs with
  | nil => rfl
  | cons c cs ih =>
      obtain ⟨a, j, source, target, hspans⟩ := exists_spans h (hcs c List.mem_cons_self)
      have hai : a ≠ i := by
        rintro rfl
        have hsource := hspans.sourceSocket
        rw [hs, Option.some.injEq] at hsource
        have hout := hspans.output
        rw [← hsource, hin] at hout
        cases hout
      have hrest := ih fun c hc => hcs c (List.mem_cons_of_mem _ hc)
      rw [List.filterMap_cons, hspans.ends_eq h]
      dsimp only
      rw [List.flatMap_cons, hrest, added, if_neg hai, List.nil_append]
      by_cases hj : j = i
      · subst hj
        have htarget := hspans.targetSocket
        rw [hs, Option.some.injEq] at htarget
        subst htarget
        rw [if_pos rfl, List.filter_cons_of_pos (by simp [hspans.targetPort]), List.filterMap_cons,
          ← hspans.sourcePort, h.socketOf?_eq hspans.sourceSocket]
        rfl
      · have hport : c.target.port ≠ socket.port.id := fun hport =>
          hj (h.socket_unique hspans.targetSocket hs (hspans.targetPort.trans hport))
        rw [if_neg hj, List.filter_cons_of_neg (by simpa using hport), List.nil_append]

theorem links_ofTree (h : t.WellFormed) (hs : (ofTree t).sockets[i]? = some socket)
    (hin : socket.port.direction = .input) : socket.links =
      (t.connectionsTo socket.port.id).filterMap fun c => (ofTree t).socketOf? c.source.port := by
  rw [links_eq hs, flatMap_added h hs hin h.joined]
  rfl

theorem mem_links_iff (h : t.WellFormed) (hs : (ofTree t).sockets[i]? = some socket)
    (hin : socket.port.direction = .input) : a ∈ socket.links ↔
      ∃ c ∈ t.connections.values, ∃ source, Spans t c a i source socket := by
  rw [links_ofTree h hs hin, List.mem_filterMap]
  constructor
  · rintro ⟨c, hc, ha⟩
    obtain ⟨hc, htarget⟩ := Tree.mem_connectionsTo hc
    obtain ⟨b, j, source, target, hspans⟩ := exists_spans h (h.joined c hc)
    rw [← hspans.sourcePort, h.socketOf?_eq hspans.sourceSocket, Option.some.injEq] at ha
    subst ha
    obtain rfl := h.socket_unique hspans.targetSocket hs (hspans.targetPort.trans htarget)
    obtain rfl := Option.some.inj (hs.symm.trans hspans.targetSocket)
    exact ⟨c, hc, source, hspans⟩
  · rintro ⟨c, hc, source, hspans⟩
    refine ⟨c, List.mem_filter.mpr ⟨hc, by simp [hspans.targetPort]⟩, ?_⟩
    rw [← hspans.sourcePort, h.socketOf?_eq hspans.sourceSocket]

end Snapshot

end Nodeflow
