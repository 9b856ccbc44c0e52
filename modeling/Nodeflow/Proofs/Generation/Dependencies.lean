import Nodeflow.Proofs.Generation.Acceptance

/-!
# What generated functions depend on

A generated function tells which arguments each of its results depends on. A call needs no others for
the results that are missing, and their values are computed from these arguments alone.
-/

namespace Nodeflow

open Eval

namespace Tree

open Snapshot

variable {t : Tree} {config : Config} {d : Draft} {lowered : LoweredTree} {sockets : InterfaceSockets}
  {g : FunctionGraph} {p : Package}

theorem Generates.exists_dependencies (h : t.Generates config d lowered sockets g p)
    (hc : config.dependenciesBody = true) : ∃ lists, p.function.dependencies? = some (.ofLists lists) ∧
      List.Forall₂ g.Depends g.outputs lists := by
  obtain ⟨d?, p?, hmade⟩ := FunctionGraph.exists_made h.function
  have hd := hmade.dependencies
  rw [if_pos hc] at hd
  obtain ⟨found, hfound, rfl⟩ := hd
  obtain ⟨nodes, hnodes⟩ := FunctionGraph.exists_neededNodes h.graph h.frozen
  obtain ⟨lists, hlists, hdepends⟩ := FunctionGraph.exists_dependencies h.frozen
    (fun s hs => h.contains s (List.mem_append_right _ hs)) h.standard.readable hnodes
  rw [hfound, Except.ok.injEq] at hlists
  subst hlists
  exact ⟨lists, hmade.dependencies?, hdepends⟩

/-- A call that has the arguments for the missing results computes just these. -/
theorem Generates.exists_supplies (h : t.Generates config d lowered sockets g p) {lists : List (List Nat)}
    (hlists : List.Forall₂ g.Depends g.outputs lists) {tuples : Tuples}
    (ht : p.function.Sufficient (.ofLists lists) tuples) (c : Context) : ∃ vs, Typed vs p.function.outputs ∧
      (runOn c (p.function.call g.evaluate tuples)).1 = .ok ⟨tuples.input.clear, .filled p.function.outputs vs⟩ ∧
        List.Forall₂ (fun r v => g.Supplies h.frozen.wellFounded tuples.input.contents r.1 r.2 v)
          (g.outputs.zip tuples.output.slots.toList) vs := by
  obtain ⟨d?, p?, hmade⟩ := FunctionGraph.exists_made h.function
  obtain ⟨vs, htyped, hvs⟩ := FunctionGraph.exists_supplies h.frozen h.standard
    (fun s hs => h.contains s (List.mem_append_right _ hs)) hmade.signature hlists ht
  have hsize : g.outputs.length = p.function.outputs.size := by
    rw [hmade.signature.outputs.length_eq, Array.length_toList]
  exact ⟨vs, htyped, FunctionGraph.call_evaluate h.frozen h.ignoresContext h.leavesCounts _ ht.output.layout hsize hvs c, hvs⟩

/--
The dependencies that a generated function tells are those of its evaluation. With all arguments that
the missing results depend on, the function can be called: results that are there stay, and a missing
one is the same in two calls that agree on the arguments that it depends on.
-/
theorem calls_agree_on_dependencies (h : t.generate config (.builtin config) = .ok (some p))
    (hc : config.dependenciesBody = true) : ∃ body dependencies, p.function.tupleCall? = some body ∧
      p.function.dependencies? = some dependencies ∧
      (∀ k < p.function.outputs.size, ∃ list, p.function.dependenciesOf dependencies k = .ok list) ∧
      ∀ (output a b : Tuple) (c : Context), p.function.Sufficient dependencies ⟨a, output⟩ →
        p.function.Sufficient dependencies ⟨b, output⟩ →
          ∃ xs ys, Typed xs p.function.outputs ∧ Typed ys p.function.outputs ∧
            (runOn c (p.function.call body ⟨a, output⟩)).1 = .ok ⟨a.clear, .filled p.function.outputs xs⟩ ∧
            (runOn c (p.function.call body ⟨b, output⟩)).1 = .ok ⟨b.clear, .filled p.function.outputs ys⟩ ∧
            (∀ k v, output.value? k = .ok (some v) → xs[k]? = some v ∧ ys[k]? = some v) ∧
            ∀ k list, output.value? k = .ok none → p.function.dependenciesOf dependencies k = .ok list →
              (∀ i ∈ list, a.value? i = b.value? i) → xs[k]? = ys[k]? := by
  obtain ⟨d, lowered, sockets, g, hgen⟩ := exists_generates h
  obtain ⟨d?, p?, hmade⟩ := FunctionGraph.exists_made hgen.function
  obtain ⟨lists, hd, hlists⟩ := hgen.exists_dependencies hc
  refine ⟨g.evaluate, .ofLists lists, hmade.tupleCall?, hd, fun k hk => ?_, fun output a b c ha hb => ?_⟩
  · rw [← Array.length_toList, ← hmade.signature.outputs.length_eq, hlists.length_eq] at hk
    exact ⟨_, Function.dependenciesOf_ofLists_eq_ok_iff.mpr ⟨_, List.getElem?_eq_getElem hk, rfl⟩⟩
  obtain ⟨xs, hxs, hcalla, hsuppliesa⟩ := hgen.exists_supplies hlists ha c
  obtain ⟨ys, hys, hcallb, hsuppliesb⟩ := hgen.exists_supplies hlists hb c
  refine ⟨xs, ys, hxs, hys, hcalla, hcallb, fun k v hv => ⟨?_, ?_⟩, fun k list hk hlist hagree => ?_⟩
  · exact (FunctionGraph.Supplies.cases hmade.signature ha.output hsuppliesa k).1 v hv
  · exact (FunctionGraph.Supplies.cases hmade.signature hb.output hsuppliesb k).1 v hv
  · exact FunctionGraph.Supplies.getElem?_eq hgen.frozen hgen.standard hmade.signature hlists ha hb hsuppliesa
      hsuppliesb hk hk hlist hagree

/-! The second result of the mixed sum depends on its second argument alone. -/

theorem mixedSum_signature (h : mixedSum.generate {} (.builtin {}) = .ok (some p)) :
    p.function.inputs = #[⟨"a", .float⟩, ⟨"n", .int⟩] ∧ p.function.outputs = #[⟨"sum", .float⟩, ⟨"n", .int⟩] ∧
      ∀ d, p.function.dependencies? = some d → p.function.dependenciesOf d 1 = .ok [1] := by
  have hparts : (mixedSum.generate {} (.builtin {})).toOption.map (fun p? => p?.map fun p =>
      (p.function.inputs, p.function.outputs,
        p.function.dependencies?.bind fun d => (p.function.dependenciesOf d 1).toOption)) =
      some (some (#[⟨"a", .float⟩, ⟨"n", .int⟩], #[⟨"sum", .float⟩, ⟨"n", .int⟩], some [1])) := by
    decide +kernel
  rw [h] at hparts
  simp only [Except.toOption, Option.map_some, Option.some.injEq, Prod.mk.injEq] at hparts
  obtain ⟨hin, hout, hd⟩ := hparts
  refine ⟨hin, hout, fun d hd' => ?_⟩
  rw [hd', Option.bind_some] at hd
  cases hlist : p.function.dependenciesOf d 1 with
  | error fault =>
      rw [hlist] at hd
      cases hd
  | ok list =>
      rw [hlist] at hd
      cases hd
      rfl

/-- The mixed sum's arguments: the first one may be missing. -/
def mixedArguments (a : Option Value) (n : Int32) : Tuple :=
  ⟨#[⟨⟨"a", .float⟩, a⟩, ⟨⟨"n", .int⟩, some (.int n)⟩]⟩

/-- The sum is there already. -/
def mixedResults : Tuple := ⟨#[⟨⟨"sum", .float⟩, some (.float .one)⟩, ⟨⟨"n", .int⟩, none⟩]⟩

theorem sufficient_mixedArguments (h : mixedSum.generate {} (.builtin {}) = .ok (some p)) {d : Dependencies}
    (hd : p.function.dependencies? = some d) {a : Option Value} (ha : ∀ v ∈ a, v.type = .float) (n : Int32) :
    p.function.Sufficient d ⟨mixedArguments a n, mixedResults⟩ := by
  obtain ⟨hin, hout, hlist⟩ := mixedSum_signature h
  refine ⟨⟨by simp [Tuple.layout, mixedArguments, hin], ?_⟩, ⟨by simp [Tuple.layout, mixedResults, hout], ?_⟩, ?_⟩
  · simpa [mixedArguments, Value.type] using ha
  · simp [mixedResults, Value.type]
  · intro k list hk hk'
    rcases k with _ | _ | k
    · cases hk
    · rw [hlist d hd, Except.ok.injEq] at hk'
      subst hk'
      simp only [List.mem_singleton, forall_eq]
      rfl
    · cases hk

theorem calls_agree_on_dependencies_mixedSum : ∃ p body d xs ys, mixedSum.generate {} (.builtin {}) = .ok (some p) ∧
    p.function.Sufficient d ⟨mixedArguments none 3, mixedResults⟩ ∧
    p.function.Sufficient d ⟨mixedArguments (some (.float .one)) 3, mixedResults⟩ ∧
    (runOn {} (p.function.call body ⟨mixedArguments none 3, mixedResults⟩)).1 =
      .ok ⟨(mixedArguments none 3).clear, .filled p.function.outputs xs⟩ ∧
    (runOn {} (p.function.call body ⟨mixedArguments (some (.float .one)) 3, mixedResults⟩)).1 =
      .ok ⟨(mixedArguments (some (.float .one)) 3).clear, .filled p.function.outputs ys⟩ ∧
    xs[0]? = some (.float .one) ∧ xs[1]? = ys[1]? := by
  obtain ⟨p, hp⟩ := exists_generate_mixedSum
  obtain ⟨body, d, -, hd, -, hcalls⟩ := calls_agree_on_dependencies hp rfl
  have ha := sufficient_mixedArguments hp hd (a := none) (by simp) 3
  have hb := sufficient_mixedArguments hp hd (a := some (.float .one)) (by simp [Value.type]) 3
  obtain ⟨xs, ys, -, -, hx, hy, hkept, hsame⟩ := hcalls mixedResults _ _ {} ha hb
  refine ⟨p, body, d, xs, ys, hp, ha, hb, hx, hy, (hkept 0 _ rfl).1, ?_⟩
  refine hsame 1 [1] rfl ((mixedSum_signature hp).2.2 d hd) ?_
  simp only [List.mem_singleton, forall_eq]
  rfl

end Tree

end Nodeflow
