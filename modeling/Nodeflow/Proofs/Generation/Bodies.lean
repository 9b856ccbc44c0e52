import Nodeflow.Proofs.Generation.Acceptance
import Nodeflow.Proofs.Generation.Execution

/-!
# The bodies of generated functions

A generated function that has a program gives the same results on both of its ways: as a program, and
by evaluation of the graph it was made from.
-/

namespace Nodeflow

open Eval

namespace Tree

open Snapshot

variable {t : Tree} {config : Config} {d : Draft} {lowered : LoweredTree} {sockets : InterfaceSockets}
  {g : FunctionGraph} {p : Package}

/--
A function that is generated with a program can be called and its program can be executed, on all
arguments of its types, and both give the same results, of its types.
-/
theorem exists_agreeing_bodies (h : t.generate config (.builtin config) = .ok (some p))
    (hc : config.compiledBody = true) : ∃ body emitter program, p.function.tupleCall? = some body ∧
      p.function.compiled? = some emitter ∧ p.function.program emitter = .ok program ∧
        ∀ args, Typed args p.function.inputs → ∃ ys, Typed ys p.function.outputs ∧
          (runOn {} (p.function.call body
            ⟨Tuple.filled p.function.inputs args, Tuple.new p.function.outputs⟩)).1 =
            .ok ⟨Tuple.new p.function.inputs, Tuple.filled p.function.outputs ys⟩ ∧
          program.execute args = .ok ys := by
  obtain ⟨d, lowered, sockets, g, hgen⟩ := exists_generates h
  obtain ⟨d?, p?, hmade⟩ := FunctionGraph.exists_made hgen.function
  obtain ⟨nodes, hnodes⟩ := FunctionGraph.exists_neededNodes hgen.graph hgen.frozen
  obtain ⟨emitter, program, hemitter, hprogram, hexecute⟩ :=
    hmade.exists_program hc hgen.frozen hgen.standard hnodes
  refine ⟨g.evaluate, emitter, program, hmade.tupleCall?, hemitter, hprogram, fun args ha => ?_⟩
  obtain ⟨ys, hys, htyped⟩ := hgen.exists_results ha
  exact ⟨ys, htyped, hgen.call_eq ha hys htyped {}, hexecute args ys (hmade.signature.accepts ha) hys⟩

theorem exists_agreeing_bodies_mixedSum : ∃ p, mixedSum.generate {} (.builtin {}) = .ok (some p) ∧
    ({} : Config).compiledBody = true ∧ ∃ body emitter program, p.function.tupleCall? = some body ∧
      p.function.compiled? = some emitter ∧ p.function.program emitter = .ok program ∧
        ∀ args, Typed args p.function.inputs → ∃ ys, Typed ys p.function.outputs ∧
          (runOn {} (p.function.call body
            ⟨Tuple.filled p.function.inputs args, Tuple.new p.function.outputs⟩)).1 =
            .ok ⟨Tuple.new p.function.inputs, Tuple.filled p.function.outputs ys⟩ ∧
          program.execute args = .ok ys := by
  obtain ⟨p, hp⟩ := exists_generate_mixedSum
  exact ⟨p, hp, rfl, exists_agreeing_bodies hp rfl⟩

end Tree

end Nodeflow
