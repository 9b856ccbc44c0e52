import Nodeflow.Proofs.FunctionGraph.Rounds

/-!
# Settling nodes

A node that stands on top of the stack is settled after some rounds: it is finished, or the
evaluation has ended in a fault and so does the recursive evaluation. The induction is on the rank of
the node, and for nodes of one rank on the steps that the node may still take.
-/

namespace Nodeflow

open Eval Evaluation

variable {g : FunctionGraph} {acyclic : WellFounded g.graph.Feeds} {arguments : List (Option Value)}
  {rank : DataNode → Nat} {entries : Nat}

namespace FunctionGraph

theorem pendingNodes_eq_ok {e : Evaluation} {n : DataNode} {pending : List DataNode}
    (h : g.pendingNodes e n = .ok pending) : ∃ entry needed, g.graph.nodes[n.index]? = some entry ∧
      neededInputs e n entry = .ok needed ∧
        (∀ i ∈ needed, g.pendingNode? e n i = .ok none ∨
          ∃ m ∈ pending, g.pendingNode? e n i = .ok (some m)) ∧
            ∀ m ∈ pending, ∃ i ∈ needed, g.pendingNode? e n i = .ok (some m) := by
  simp only [pendingNodes, bind_eq_ok_iff, Wiring.node_eq_ok_iff, mapM_eq_ok_iff, pure_eq_ok_iff] at h
  obtain ⟨entry, hn, needed, hneeded, nodes?, hall, rfl⟩ := h
  refine ⟨entry, needed, hn, hneeded, ?_⟩
  clear hneeded
  induction hall with
  | nil => simp
  | @cons i n? needed nodes? hi _ ih =>
      obtain ⟨hto, hfrom⟩ := ih
      constructor
      · intro j hj
        rcases List.mem_cons.mp hj with rfl | hj
        · cases n? with
          | none => exact .inl hi
          | some m => exact .inr ⟨m, by simp, hi⟩
        · rcases hto j hj with hnone | ⟨m, hm, hsome⟩
          · exact .inl hnone
          · exact .inr ⟨m, by cases n? <;> simp_all, hsome⟩
      · intro m hm
        cases n? with
        | none =>
            obtain ⟨j, hj, hsome⟩ := hfrom m hm
            exact ⟨j, by simp [hj], hsome⟩
        | some m' =>
            rcases List.mem_cons.mp hm with rfl | hm
            · exact ⟨i, by simp, hi⟩
            · obtain ⟨j, hj, hsome⟩ := hfrom m hm
              exact ⟨j, by simp [hj], hsome⟩

theorem pendingNodes_eq_nil {e : Evaluation} {n : DataNode} {entry : NodeEntry} {needed : List Nat}
    (hn : g.graph.nodes[n.index]? = some entry) (hneeded : neededInputs e n entry = .ok needed)
    (h : ∀ i ∈ needed, g.pendingNode? e n i = .ok none) : g.pendingNodes e n = .ok [] := by
  simp only [pendingNodes, bind_eq_ok_iff, Wiring.node_eq_ok_iff, mapM_eq_ok_iff, pure_eq_ok_iff]
  refine ⟨entry, hn, needed, hneeded, needed.map fun _ => none, ?_, by simp⟩
  rw [List.forall₂_map_right_iff, List.forall₂_same]
  exact h

theorem outputValue_ne_ok {o : OutputSocket} {origin : OutputEntry}
    (ho : g.graph.outputs[o.index]? = some origin) (hf : g.Fails acyclic arguments origin.node)
    (v : Value) : g.outputValue acyclic arguments o ≠ .ok v := by
  intro h
  simp only [outputValue, bind_eq_ok_iff, Wiring.output_eq_ok_iff] at h
  obtain ⟨origin', ho', vs, hvs, -⟩ := h
  rw [ho] at ho'
  cases ho'
  exact hf vs hvs

theorem inputValue_ne_ok {n : DataNode} {i : Nat} {o : OutputSocket} {origin : OutputEntry}
    (hs : g.inputSource n i = .ok (.node o)) (ho : g.graph.outputs[o.index]? = some origin)
    (hf : g.Fails acyclic arguments origin.node) (v : Value) :
    g.inputValue acyclic arguments n i ≠ .ok v := by
  rw [inputValue, hs]
  exact outputValue_ne_ok ho hf v

end FunctionGraph

namespace Evaluation

/-- The evaluation `e'` behind some rounds has finished the given nodes, all below a rank. -/
structure Finishes (g : FunctionGraph) (acyclic : WellFounded g.graph.Feeds)
    (arguments : List (Option Value)) (entries : Nat) (rank : DataNode → Nat) (bound : Nat)
    (nodes : List DataNode) (e e' : Evaluation) (rounds : Nat) : Prop where
  sound : e'.Sound g acyclic arguments entries
  finished : ∀ n ∈ nodes, e'.isFinished n = true
  kept : ∀ n, e.isFinished n = true → e'.isFinished n = true
  same : ∀ n, bound ≤ rank n → e.SameAt e' n
  run : ∀ (limit : Fault) (left : Nat) (rest : List DataNode),
    (g.compute limit (rounds + left) (nodes ++ rest) e).result = (g.compute limit left rest e').result

/-- Work on the nodes finishes them, or it ends in a fault at a node that fails. -/
def Settles (g : FunctionGraph) (acyclic : WellFounded g.graph.Feeds)
    (arguments : List (Option Value)) (entries : Nat) (rank : DataNode → Nat) (bound budget : Nat)
    (nodes : List DataNode) (e : Evaluation) : Prop :=
  (∃ e' rounds, Finishes g acyclic arguments entries rank bound nodes e e' rounds ∧
    rounds + 2 * work g acyclic arguments rank bound e' ≤ budget) ∨
  ((∃ n ∈ nodes, g.Fails acyclic arguments n) ∧ ∃ fault rounds, rounds ≤ budget ∧
    ∀ (limit : Fault) (left : Nat) (rest : List DataNode),
      (g.compute limit (rounds + left) (nodes ++ rest) e).result = .error fault)

namespace Settles

variable {bound budget : Nat} {n : DataNode} {nodes : List DataNode} {e e' : Evaluation}

theorem of_finished (he : e.Sound g acyclic arguments entries) (hf : e.isFinished n = true) :
    Settles g acyclic arguments entries rank bound (2 * work g acyclic arguments rank bound e) [n] e := by
  refine .inl ⟨e, 0, ⟨he, by simpa using hf, fun _ h => h, fun _ _ => ⟨rfl, rfl⟩, ?_⟩, by omega⟩
  intro limit left rest
  rw [Nat.zero_add]
  exact congrArg Eval.result (FunctionGraph.compute_of_finished hf limit left rest)

theorem all (he : e.Sound g acyclic arguments entries) (h : ∀ n ∈ nodes, ∀ e : Evaluation,
    e.Sound g acyclic arguments entries →
      Settles g acyclic arguments entries rank bound (2 * work g acyclic arguments rank bound e) [n] e) :
    Settles g acyclic arguments entries rank bound (2 * work g acyclic arguments rank bound e) nodes e := by
  induction nodes generalizing e with
  | nil =>
      refine .inl ⟨e, 0, ⟨he, by simp, fun _ h => h, fun _ _ => ⟨rfl, rfl⟩, ?_⟩, by omega⟩
      intro limit left rest
      rw [Nat.zero_add, List.nil_append]
  | cons n nodes ih =>
      rcases h n (by simp) e he with ⟨e₁, r₁, h₁, hle₁⟩ | ⟨⟨m, hm, hfail⟩, fault, r, hle, hrun⟩
      · rcases ih h₁.sound fun m hm => h m (by simp [hm]) with
          ⟨e₂, r₂, h₂, hle₂⟩ | ⟨⟨m, hm, hfail⟩, fault, r₂, hle₂, hrun₂⟩
        · refine .inl ⟨e₂, r₁ + r₂, ⟨h₂.sound, ?_, fun m hm => h₂.kept m (h₁.kept m hm), ?_, ?_⟩,
            by omega⟩
          · intro m hm
            rcases List.mem_cons.mp hm with rfl | hm
            · exact h₂.kept m (h₁.finished m (by simp))
            · exact h₂.finished m hm
          · intro m hm
            exact ⟨(h₂.same m hm).1.trans (h₁.same m hm).1, (h₂.same m hm).2.trans (h₁.same m hm).2⟩
          · intro limit left rest
            rw [Nat.add_assoc]
            exact (h₁.run limit (r₂ + left) (nodes ++ rest)).trans (h₂.run limit left rest)
        · refine .inr ⟨⟨m, by simp [hm], hfail⟩, fault, r₁ + r₂, by omega, ?_⟩
          intro limit left rest
          rw [Nat.add_assoc]
          exact (h₁.run limit (r₂ + left) (nodes ++ rest)).trans (hrun₂ limit left rest)
      · obtain rfl : m = n := by simpa using hm
        refine .inr ⟨⟨m, by simp, hfail⟩, fault, r, hle, ?_⟩
        intro limit left rest
        exact hrun limit left (nodes ++ rest)

/-- A node is settled if it is after some rounds that only bring it on. -/
theorem after {rounds : Nat} (hkept : ∀ m, e.isFinished m = true → e'.isFinished m = true)
    (hsame : ∀ m, bound ≤ rank m → e.SameAt e' m)
    (hrun : ∀ (limit : Fault) (left : Nat) (rest : List DataNode),
      (g.compute limit (rounds + left) (n :: rest) e).result = (g.compute limit left (n :: rest) e').result)
    (h : Settles g acyclic arguments entries rank bound budget [n] e') :
    Settles g acyclic arguments entries rank bound (rounds + budget) [n] e := by
  rcases h with ⟨e₁, r, h, hle⟩ | ⟨hfail, fault, r, hle, hrun'⟩
  · refine .inl ⟨e₁, rounds + r, ⟨h.sound, h.finished, fun m hm => h.kept m (hkept m hm), ?_, ?_⟩,
      by omega⟩
    · intro m hm
      exact ⟨(h.same m hm).1.trans (hsame m hm).1, (h.same m hm).2.trans (hsame m hm).2⟩
    · intro limit left rest
      rw [Nat.add_assoc]
      exact (hrun limit (r + left) rest).trans (h.run limit left rest)
  · refine .inr ⟨hfail, fault, rounds + r, by omega, ?_⟩
    intro limit left rest
    rw [Nat.add_assoc]
    exact (hrun limit (r + left) rest).trans (hrun' limit left rest)

theorem mono {budget' : Nat} (h : Settles g acyclic arguments entries rank bound budget nodes e)
    (hle : budget ≤ budget') : Settles g acyclic arguments entries rank bound budget' nodes e := by
  rcases h with ⟨e₁, r, h, hr⟩ | ⟨hfail, fault, r, hr, hrun⟩
  · exact .inl ⟨e₁, r, h, by omega⟩
  · exact .inr ⟨hfail, fault, r, by omega, hrun⟩

/-- Work that is done below a rank is done below a higher rank. -/
theorem raise {bound' : Nat} (hb : bound ≤ bound')
    (h : Settles g acyclic arguments entries rank bound (2 * work g acyclic arguments rank bound e) nodes e) :
    Settles g acyclic arguments entries rank bound' (2 * work g acyclic arguments rank bound' e) nodes e := by
  rcases h with ⟨e₁, r, h, hr⟩ | ⟨hfail, fault, r, hr, hrun⟩
  · have hwork := work_exchange acyclic arguments hb h.same
    exact .inl ⟨e₁, r, ⟨h.sound, h.finished, h.kept, fun m hm => h.same m (le_trans hb hm), h.run⟩,
      by omega⟩
  · have hwork := work_mono g acyclic arguments rank hb e
    exact .inr ⟨hfail, fault, r, by omega, hrun⟩

end Settles

namespace Sound

variable {e e' : Evaluation} {n : DataNode} {entry : NodeEntry}

theorem inputValue_ne_ok_of_pendingNode? {i : Nat} {fault : Fault}
    (h : g.pendingNode? e n i = .error fault) (v : Value) :
    g.inputValue acyclic arguments n i ≠ .ok v := by
  intro hv
  obtain ⟨source, hs, hv⟩ := bind_eq_ok_iff.mp hv
  rw [FunctionGraph.pendingNode?_eq, hs] at h
  cases source with
  | argument k => cases h
  | node o =>
      obtain ⟨origin, ho, -⟩ := bind_eq_ok_iff.mp hv
      change (if e.isComputed o then _ else (g.graph.output o).map _) = _ at h
      rw [ho] at h
      split at h <;> cases h

theorem fails_of_pendingNodes_error (he : e.Sound g acyclic arguments entries) (hi : g.IgnoresContext)
    (hn : g.graph.nodes[n.index]? = some entry) {fault : Fault}
    (hp : g.pendingNodes e n = .error fault) : g.Fails acyclic arguments n := by
  have hentry := hi n.index entry hn
  cases hneeded : FunctionGraph.neededInputs e n entry with
  | error fault' =>
      intro vs h
      rw [FunctionGraph.nodeOutputs_eq, Wiring.node_eq_ok_iff.mpr hn] at h
      change entry.evaluate _ = _ at h
      unfold FunctionGraph.neededInputs at hneeded
      unfold NodeEntry.evaluate at h
      cases ht : entry.function.tupleCall? with
      | some body => simp [ht] at hneeded
      | none =>
          cases hb : entry.function.lazyTupleCall? with
          | none => simp [ht, hb] at h
          | some body =>
              simp only [ht, hb] at hneeded
              split at hneeded <;> cases hneeded
  | ok needed =>
      simp only [FunctionGraph.pendingNodes, Wiring.node_eq_ok_iff.mpr hn] at hp
      change FunctionGraph.neededInputs e n entry >>= _ = _ at hp
      rw [hneeded] at hp
      change needed.mapM (g.pendingNode? e n) >>= _ = _ at hp
      cases hmap : needed.mapM (g.pendingNode? e n) with
      | ok nodes? =>
          rw [hmap] at hp
          cases hp
      | error fault' =>
          obtain ⟨i, hmem, hpi⟩ := exists_of_mapM_eq_error hmap
          exact he.fails_of_needed hn hentry hneeded hmem (inputValue_ne_ok_of_pendingNode? hpi)

/-- The nodes that are pending feed the node, and the node fails if one of them fails. -/
theorem pendingNodes_feed (he : e.Sound g acyclic arguments entries) (hg : Wiring.Numbered g.graph)
    (hi : g.IgnoresContext) {pending : List DataNode} (hp : g.pendingNodes e n = .ok pending)
    {m : DataNode} (hm : m ∈ pending) : g.graph.Feeds m n ∧ m.index < g.graph.nodes.size ∧
      (g.Fails acyclic arguments m → g.Fails acyclic arguments n) := by
  obtain ⟨entry, needed, hn, hneeded, -, hfrom⟩ := FunctionGraph.pendingNodes_eq_ok hp
  obtain ⟨i, hi', hsome⟩ := hfrom m hm
  obtain ⟨o, origin, hs, ho, rfl⟩ := FunctionGraph.pendingNode?_eq_some hsome
  obtain ⟨entry', hn', -⟩ := hg.output_place ho
  exact ⟨g.feeds_of_inputSource hs (Wiring.output_eq_ok_iff.mpr ho),
    (Array.getElem?_eq_some_iff.mp hn').1, fun hf =>
      he.fails_of_needed hn (hi _ _ hn) hneeded hi' (FunctionGraph.inputValue_ne_ok hs ho hf)⟩

theorem pendingNodes_of_finished (he : e.Sound g acyclic arguments entries)
    (he' : e'.Sound g acyclic arguments entries) {pending : List DataNode}
    (hp : g.pendingNodes e n = .ok pending) (hfin : ∀ m ∈ pending, e'.isFinished m = true)
    (hkept : ∀ m, e.isFinished m = true → e'.isFinished m = true) (hsame : e.SameAt e' n) :
    g.pendingNodes e' n = .ok [] := by
  obtain ⟨entry, needed, hn, hneeded, hto, -⟩ := FunctionGraph.pendingNodes_eq_ok hp
  have hneeded' : FunctionGraph.neededInputs e' n entry = .ok needed := by
    rw [← hneeded, FunctionGraph.neededInputs, FunctionGraph.neededInputs, hsame.2]
  refine FunctionGraph.pendingNodes_eq_nil hn hneeded' fun i hi => ?_
  rw [he'.pendingNode?_eq_none_iff]
  rcases hto i hi with hnone | ⟨m, hm, hsome⟩
  · rcases he.pendingNode?_eq_none_iff.mp hnone with hk | ⟨o, origin, hs, ho, hf⟩
    · exact .inl hk
    · exact .inr ⟨o, origin, hs, ho, hkept _ hf⟩
  · obtain ⟨o, origin, hs, ho, rfl⟩ := FunctionGraph.pendingNode?_eq_some hsome
    exact .inr ⟨o, origin, hs, ho, hfin _ hm⟩

end Sound

/-- A node is settled within two rounds for each unit of the work up to its rank. -/
abbrev SettlesNode (g : FunctionGraph) (acyclic : WellFounded g.graph.Feeds) (arguments : List (Option Value))
    (entries : Nat) (rank : DataNode → Nat) (n : DataNode) (e : Evaluation) : Prop :=
  Settles g acyclic arguments entries rank (rank n + 1) (2 * work g acyclic arguments rank (rank n + 1) e) [n] e

variable {e : Evaluation} {n : DataNode}

theorem settles_step (he : e.Sound g acyclic arguments entries) (hg : Wiring.Numbered g.graph)
    (hi : g.IgnoresContext) (hends : g.EndsWithin acyclic arguments entries) (hf : e.isFinished n = false)
    (hp : g.pendingNodes e n = .ok [])
    (ih : ∀ e' : Evaluation, e'.Sound g acyclic arguments entries →
      remaining g acyclic arguments e' n < remaining g acyclic arguments e n →
        SettlesNode g acyclic arguments entries rank n e') :
    Settles g acyclic arguments entries rank (rank n + 1)
      (2 * work g acyclic arguments rank (rank n + 1) e - 1) [n] e := by
  obtain ⟨entry, needed, hn, hneeded, hto, -⟩ := FunctionGraph.pendingNodes_eq_ok hp
  have hlt : n.index < g.graph.nodes.size := (Array.getElem?_eq_some_iff.mp hn).1
  have hpos := work_lt_succ acyclic arguments rank hlt hf
  have hround (limit : Fault) (left : Nat) (rest : List DataNode) :
      (g.compute limit (1 + left) (n :: rest) e).result =
        (g.step e n).result >>= fun e => (g.compute limit left (n :: rest) e).result := by
    rw [FunctionGraph.result_compute hi hf, hp]
    rfl
  rcases he.stepped_step hg hn (hi _ _ hn) hf hneeded (fun i hmem => by simpa using hto i hmem) hends with
    ⟨fault, hstep, hfail⟩ | ⟨e', hstep, he', hadv⟩
  · refine .inr ⟨⟨n, by simp, hfail⟩, fault, 1, by omega, fun limit left rest => ?_⟩
    refine (hround limit left rest).trans ?_
    rw [hstep]
    rfl
  · have hless := hadv.work_lt rank hlt
    have hset : Settles g acyclic arguments entries rank (rank n + 1)
        (1 + 2 * work g acyclic arguments rank (rank n + 1) e') [n] e := by
      refine .after ?_ ?_ (fun limit left rest => ?_) (ih e' he' hadv.fewer)
      · intro m hm
        rw [(hadv.others m fun h => by simp [h, hf] at hm).1, hm]
      · intro m hm
        exact hadv.others m fun h => by simp [h] at hm
      · rw [hround, hstep]
        rfl
    exact hset.mono (by omega)

/-- A node that waits for others is settled if they are, and if it is after one more step of its own. -/
theorem settles_waiting (he : e.Sound g acyclic arguments entries) (hg : Wiring.Numbered g.graph)
    (hi : g.IgnoresContext) (hends : g.EndsWithin acyclic arguments entries)
    (hn : n.index < g.graph.nodes.size) (hf : e.isFinished n = false)
    {pending : List DataNode} (hp : g.pendingNodes e n = .ok pending) (hnil : pending ≠ [])
    (hpending : Settles g acyclic arguments entries rank (rank n)
      (2 * work g acyclic arguments rank (rank n) e) pending.reverse e)
    (ih : ∀ e' : Evaluation, e'.Sound g acyclic arguments entries →
      remaining g acyclic arguments e' n < remaining g acyclic arguments e n →
        SettlesNode g acyclic arguments entries rank n e') :
    SettlesNode g acyclic arguments entries rank n e := by
  have hpos := work_lt_succ acyclic arguments rank hn hf
  have hround (limit : Fault) (left : Nat) (rest : List DataNode) :
      (g.compute limit (1 + left) (n :: rest) e).result =
        (g.compute limit left (pending.reverse ++ n :: rest) e).result := by
    rw [FunctionGraph.result_compute hi hf, hp]
    change (if pending.isEmpty then _ else _) = _
    rw [if_neg (by simpa using hnil)]
  rcases hpending with ⟨e₁, r, h, hle⟩ | ⟨⟨m, hm, hfail⟩, fault, r, hle, hrun⟩
  · have hsame := h.same n (le_refl _)
    have hf₁ : e₁.isFinished n = false := hsame.1.trans hf
    have hp₁ := he.pendingNodes_of_finished h.sound hp
      (fun m hm => h.finished m (List.mem_reverse.mpr hm)) h.kept hsame
    have hpos₁ := work_lt_succ acyclic arguments rank hn hf₁
    have hwork := work_exchange acyclic arguments (show rank n ≤ rank n + 1 by omega) h.same
    have hstep := settles_step h.sound hg hi hends hf₁ hp₁ fun e' he' hless =>
      ih e' he' (hsame.remaining_eq ▸ hless)
    have hafter : Settles g acyclic arguments entries rank (rank n + 1)
        (1 + r + (2 * work g acyclic arguments rank (rank n + 1) e₁ - 1)) [n] e := by
      refine .after h.kept (fun m hm => h.same m (by omega)) ?_ hstep
      intro limit left rest
      rw [Nat.add_assoc, hround]
      exact h.run limit left (n :: rest)
    exact hafter.mono (by omega)
  · obtain ⟨-, -, hfails⟩ := he.pendingNodes_feed hg hi hp (List.mem_reverse.mp hm)
    refine .inr ⟨⟨n, by simp, hfails hfail⟩, fault, 1 + r, by omega, ?_⟩
    intro limit left rest
    rw [Nat.add_assoc]
    exact (hround limit (r + left) rest).trans (hrun limit left (n :: rest))

theorem settles_node (hg : Wiring.Numbered g.graph) (hi : g.IgnoresContext)
    (hends : g.EndsWithin acyclic arguments entries) (hr : ∀ m n, g.graph.Feeds m n → rank m < rank n)
    {e : Evaluation} {n : DataNode} (he : e.Sound g acyclic arguments entries)
    (hn : n.index < g.graph.nodes.size) : SettlesNode g acyclic arguments entries rank n e := by
  cases hf : e.isFinished n with
  | true => exact .of_finished he hf
  | false =>
      cases hp : g.pendingNodes e n with
      | error fault =>
          have hpos := work_lt_succ acyclic arguments rank hn hf
          obtain ⟨entry, hentry⟩ : ∃ entry, g.graph.nodes[n.index]? = some entry :=
            ⟨_, Array.getElem?_eq_getElem hn⟩
          refine .inr ⟨⟨n, by simp, he.fails_of_pendingNodes_error hi hentry hp⟩, fault, 1, by omega, ?_⟩
          intro limit left rest
          refine (FunctionGraph.result_compute hi hf limit left rest).trans ?_
          rw [hp]
          rfl
      | ok pending =>
          -- Another step of the node leaves it fewer steps.
          have ih (e' : Evaluation) (he' : e'.Sound g acyclic arguments entries)
              (hless : remaining g acyclic arguments e' n < remaining g acyclic arguments e n) :=
            settles_node hg hi hends hr he' hn
          by_cases hnil : pending = []
          · exact (settles_step he hg hi hends hf (hnil ▸ hp) ih).mono (by omega)
          · have hpending : Settles g acyclic arguments entries rank (rank n)
                (2 * work g acyclic arguments rank (rank n) e) pending.reverse e := by
              refine .all he fun m hm e' he' => ?_
              obtain ⟨hfeeds, hm', -⟩ := he.pendingNodes_feed hg hi hp (List.mem_reverse.mp hm)
              have hrank := hr m n hfeeds
              exact (settles_node hg hi hends hr he' hm').raise hrank
            exact settles_waiting he hg hi hends hn hf hp hnil hpending ih
termination_by (rank n, remaining g acyclic arguments e n)

end Evaluation

end Nodeflow
