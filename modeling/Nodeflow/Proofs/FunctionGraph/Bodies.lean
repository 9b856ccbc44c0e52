import Nodeflow.Generation
import Nodeflow.Proofs.FunctionGraph.Agreement
import Nodeflow.Proofs.FunctionGraph.Dependencies
import Nodeflow.Proofs.FunctionGraph.Results
import Nodeflow.Proofs.Program.Renumbering

/-!
# The function of a graph of operations

The function of a graph of operations has a program and an evaluation of the graph, and both give
the same results.
-/

namespace Nodeflow

namespace FunctionGraph

variable {g : FunctionGraph} {f : Function}

/-- The parameters of a graph's function are those of its sockets. -/
structure Signature (g : FunctionGraph) (f : Function) : Prop where
  inputs : List.Forall₂ (fun s p => g.graph.parameter s = .ok p) g.inputs f.inputs.toList
  outputs : List.Forall₂ (fun s p => g.graph.parameter s = .ok p) g.outputs f.outputs.toList

theorem signature_newFunction {name : String} (h : g.newFunction name = .ok f) :
    g.Signature f ∧ f.bodies = [] := by
  simp only [newFunction, bind_eq_ok_iff, mapM_eq_ok_iff, pure_eq_ok_iff] at h
  obtain ⟨inputs, hin, outputs, hout, rfl⟩ := h
  exact ⟨⟨hin, hout⟩, rfl⟩

theorem Signature.accepts (h : g.Signature f) {args : List Value} (ha : Typed args f.inputs) :
    g.Accepts args :=
  forall₂_join h.inputs.flip ha.flip fun p _ _ hs hv => ⟨p, hs, hv⟩

theorem Signature.typed (h : g.Signature f) {ys : List Value} (hys : List.Forall₂ g.Suits g.outputs ys) :
    Typed ys f.outputs :=
  forall₂_join hys h.outputs fun s v p hv hp => by
    obtain ⟨p', hp', htype⟩ := hv
    rw [hp] at hp'
    cases hp'
    exact htype

theorem Signature.of_eq {f' : Function} (h : g.Signature f) (hin : f'.inputs = f.inputs)
    (hout : f'.outputs = f.outputs) : g.Signature f' :=
  ⟨hin ▸ h.inputs, hout ▸ h.outputs⟩

/-- The bodies of a graph's function: what is known of its dependencies, its program, its evaluation. -/
structure Made (g : FunctionGraph) (config : Config) (f : Function) (d? : Option Dependencies)
    (p? : Option Program) : Prop where
  signature : g.Signature f
  dependencies : if config.dependenciesBody then ∃ d, g.dependencies = .ok d ∧ d? = some d else d? = none
  program : if config.compiledBody then g.program? = .ok p? else p? = none
  bodies : f.bodies =
    (d?.map Body.dependencies).toList ++ ((p?.map Body.ofProgram).toList ++ [.tupleCall g.evaluate])

theorem function_eq (g : FunctionGraph) (name : String) (config : Config) : g.function name config =
    g.newFunction name >>= fun f =>
      (if config.dependenciesBody then g.attachDependencies f else pure f) >>= fun f =>
        (if config.compiledBody then (·.2) <$> g.attachProgram f else pure f) >>= g.attachEvaluation := by
  rw [function]
  cases config.dependenciesBody <;> cases config.compiledBody <;> rfl

theorem attachProgram_eq_ok_iff {f' : Function} : (·.2) <$> g.attachProgram f = .ok f' ↔
    ∃ p?, g.program? = .ok p? ∧ (∀ p, p? = some p → f.hasBody .compiled = false) ∧
      f' = { f with bodies := f.bodies ++ (p?.map Body.ofProgram).toList } := by
  simp only [attachProgram, functor_map_eq_ok_iff, bind_eq_ok_iff]
  constructor
  · rintro ⟨result, ⟨p?, hp, h⟩, rfl⟩
    refine ⟨p?, hp, ?_⟩
    cases p? with
    | none =>
        cases h
        simp
    | some p =>
        obtain ⟨f'', hattach, hpair⟩ := bind_eq_ok_iff.mp h
        cases hpair
        obtain ⟨hbody, -, rfl⟩ := Function.attach_eq_ok_iff.mp hattach
        exact ⟨fun _ _ => hbody, rfl⟩
  · rintro ⟨p?, hp, hbody, rfl⟩
    cases p? with
    | none => exact ⟨(false, f), ⟨none, hp, rfl⟩, by simp⟩
    | some p =>
        have hattach : f.attach (.ofProgram p) = .ok { f with bodies := f.bodies ++ [.ofProgram p] } :=
          Function.attach_eq_ok_iff.mpr ⟨hbody p rfl, fun _ h => (by cases h), rfl⟩
        exact ⟨(true, _), ⟨some p, hp, bind_eq_ok_iff.mpr ⟨_, hattach, rfl⟩⟩, rfl⟩

theorem exists_made {name : String} {config : Config} (h : g.function name config = .ok f) :
    ∃ d? p?, g.Made config f d? p? := by
  rw [function_eq] at h
  simp only [bind_eq_ok_iff] at h
  obtain ⟨f₀, h₀, f₁, h₁, f₂, h₂, h⟩ := h
  obtain ⟨hsig, hnil⟩ := signature_newFunction h₀
  obtain ⟨-, -, rfl⟩ := Function.attach_eq_ok_iff.mp h
  have hdeps : ∃ d?, (if config.dependenciesBody then ∃ d, g.dependencies = .ok d ∧ d? = some d else d? = none) ∧
      f₁ = { f₀ with bodies := (d?.map Body.dependencies).toList } := by
    split at h₁
    · rename_i hc
      obtain ⟨d, hd, hattach⟩ := bind_eq_ok_iff.mp h₁
      obtain ⟨-, -, rfl⟩ := Function.attach_eq_ok_iff.mp hattach
      exact ⟨some d, by rw [if_pos hc]; exact ⟨d, hd, rfl⟩, by rw [hnil]; rfl⟩
    · rename_i hc
      cases h₁
      exact ⟨none, by rw [if_neg hc], by rw [Option.map_none, Option.toList_none, ← hnil]⟩
  obtain ⟨d?, hd, rfl⟩ := hdeps
  split at h₂
  · rename_i hc
    obtain ⟨p?, hp, -, rfl⟩ := attachProgram_eq_ok_iff.mp h₂
    exact ⟨d?, p?, hsig.of_eq rfl rfl, hd, by rwa [if_pos hc], List.append_assoc _ _ _⟩
  · rename_i hc
    cases h₂
    exact ⟨d?, none, hsig.of_eq rfl rfl, hd, by rw [if_neg hc], rfl⟩

theorem exists_parameter (hg : Wiring.Numbered g.graph) {s : DataSocket} (hs : g.graph.contains s) :
    ∃ p, g.graph.parameter s = .ok p := by
  cases s with
  | input s =>
      simp only [Wiring.contains, decide_eq_true_eq] at hs
      have he := Array.getElem?_eq_getElem hs
      obtain ⟨entry, hn, hlt, -⟩ := hg.input_place he
      exact ⟨_, Wiring.parameter_input_eq_ok_iff.mpr ⟨_, entry, he, hn, Array.getElem?_eq_getElem hlt⟩⟩
  | output o =>
      simp only [Wiring.contains, decide_eq_true_eq] at hs
      have he := Array.getElem?_eq_getElem hs
      obtain ⟨entry, hn, hlt, -⟩ := hg.output_place he
      exact ⟨_, Wiring.parameter_output_eq_ok_iff.mpr ⟨_, entry, he, hn, Array.getElem?_eq_getElem hlt⟩⟩

theorem exists_newFunction (hg : Wiring.Numbered g.graph) (hs : ∀ s ∈ g.inputs ++ g.outputs, g.graph.contains s)
    (name : String) : ∃ f, g.newFunction name = .ok f := by
  obtain ⟨inputs, hin⟩ := exists_forall₂ fun s hmem => exists_parameter hg (hs s (List.mem_append_left _ hmem))
  obtain ⟨outputs, hout⟩ := exists_forall₂ fun s hmem => exists_parameter hg (hs s (List.mem_append_right _ hmem))
  refine ⟨{ name, inputs := inputs.toArray, outputs := outputs.toArray }, ?_⟩
  rw [newFunction, mapM_eq_ok_iff.mpr hin, ok_bind, mapM_eq_ok_iff.mpr hout]
  rfl

/-- A graph has a function if its dependencies can be found and its program can be made. -/
theorem exists_function (hg : Wiring.Numbered g.graph) (hs : ∀ s ∈ g.inputs ++ g.outputs, g.graph.contains s)
    {lists : List (List Nat)} (hd : g.dependencies = .ok (.ofLists lists))
    (hlists : List.Forall₂ g.Depends g.outputs lists) {p? : Option Program} (hp : g.program? = .ok p?)
    (name : String) (config : Config) : ∃ f, g.function name config = .ok f := by
  obtain ⟨f₀, h₀⟩ := exists_newFunction hg hs name
  obtain ⟨hsig, hnil⟩ := signature_newFunction h₀
  obtain ⟨f₁, h₁, hkinds⟩ : ∃ f₁, (if config.dependenciesBody then g.attachDependencies f₀ else pure f₀) = .ok f₁ ∧
      ∀ body ∈ f₁.bodies, body.kind = .dependencies := by
    split
    · refine ⟨_, attachDependencies_eq hd hlists ?_ ?_ (by simp [Function.hasBody, hnil]), by simp [hnil, Body.kind]⟩
      · rw [hsig.inputs.length_eq, Array.length_toList]
      · rw [hsig.outputs.length_eq, Array.length_toList]
    · exact ⟨f₀, rfl, by simp [hnil]⟩
  have hfree {bodies : List Body} (h : ∀ body ∈ bodies, body.kind = .dependencies) {kind : BodyKind}
      (hk : kind ≠ .dependencies) : (bodies.any fun body => body.kind = kind) = false := by
    simp only [List.any_eq_false, decide_eq_true_eq]
    intro body hmem heq
    exact hk (heq.symm.trans (h body hmem))
  obtain ⟨f₂, h₂, hbody⟩ : ∃ f₂, (if config.compiledBody then (·.2) <$> g.attachProgram f₁ else pure f₁) = .ok f₂ ∧
      f₂.hasBody .tupleCall = false := by
    split
    · refine ⟨_, attachProgram_eq_ok_iff.mpr ⟨p?, hp, fun _ _ => hfree hkinds (by simp), rfl⟩, ?_⟩
      rw [Function.hasBody, List.any_append, hfree hkinds (by simp)]
      cases p? <;> rfl
    · exact ⟨f₁, rfl, hfree hkinds (by simp)⟩
  refine ⟨{ f₂ with bodies := f₂.bodies ++ [.tupleCall g.evaluate] }, ?_⟩
  rw [function_eq, h₀, ok_bind, h₁, ok_bind, h₂, ok_bind]
  exact Function.attach_eq_ok_iff.mpr ⟨hbody, fun _ h => (by cases h), rfl⟩

section

variable {config : Config} {d? : Option Dependencies} {p? : Option Program}

theorem Made.tupleCall? (h : g.Made config f d? p?) : f.tupleCall? = some g.evaluate := by
  rw [Function.tupleCall?, h.bodies]
  cases d? <;> cases p? <;> rfl

theorem Made.dependencies? (h : g.Made config f d? p?) : f.dependencies? = d? := by
  rw [Function.dependencies?, h.bodies]
  cases d? <;> cases p? <;> rfl

theorem Made.compiled? (h : g.Made config f d? p?) : f.compiled? = p?.map Program.inlined := by
  rw [Function.compiled?, h.bodies]
  cases d? <;> cases p? <;> rfl

end

theorem exists_results (hg : g.graph.Frozen) (hout : ∀ s ∈ g.outputs, g.graph.contains s) (hs : g.Standard)
    {args : List Value} (ha : g.Accepts args) : ∃ ys,
      List.Forall₂ (fun s v => g.socketValue hg.wellFounded (args.map some) s = .ok v) g.outputs ys ∧
        List.Forall₂ g.Suits g.outputs ys := by
  obtain ⟨ys, hys⟩ := exists_forall₂ fun s hmem =>
    exists_socketValue hg.wellFounded hg hs ha (hout s hmem)
  exact ⟨ys, hys.imp fun _ _ h => h.1, hys.imp fun _ _ h => h.2⟩

/-- The function of a graph of operations has a program, and its runs give the values of the results. -/
theorem Made.exists_program {config : Config} {d? : Option Dependencies} {p? : Option Program}
    (h : g.Made config f d? p?) (hc : config.compiledBody = true) (hg : g.graph.Frozen) (hs : g.Standard)
    {nodes : List DataNode} (hnodes : g.neededNodes = .ok nodes) : ∃ emitter p, f.compiled? = some emitter ∧
      f.program emitter = .ok p ∧ ∀ args ys, g.Accepts args →
        List.Forall₂ (fun s v => g.socketValue hg.wellFounded (args.map some) s = .ok v) g.outputs ys →
          p.execute args = .ok ys := by
  have hprogram := h.program
  rw [if_pos hc] at hprogram
  obtain ⟨op, hop⟩ := exists_operations hs
  rcases program?_cases hg (emittable_of_standard hop) hnodes with ⟨herror, -⟩ | ⟨p, hp, hvalid, hinputs,
    houtputs, hcount, hexec⟩
  · rw [hprogram] at herror
    cases herror
  rw [hprogram] at hp
  cases hp
  have hlenIn : f.inputs.size = p.inputs.length := by
    rw [hinputs, length_registersFrom, h.signature.inputs.length_eq, Array.length_toList]
  have hlenOut : f.outputs.size = p.outputs.length := by
    rw [houtputs, h.signature.outputs.length_eq, Array.length_toList]
  obtain ⟨q, hq, hqexec⟩ := Function.exists_program_inlined hvalid (hinputs ▸ nodup_registersFrom 0 _) hcount
    hlenIn hlenOut
  refine ⟨p.inlined, q, h.compiled?, hq, fun args ys ha hys => hqexec args ys ?_⟩
  exact hexec args _ ys (List.Forall₂.length_eq ha).symm (computes_valueOf? hg hs ha hop)
    (hys.imp fun s v => hasValue_of_socketValue)

end FunctionGraph

end Nodeflow
