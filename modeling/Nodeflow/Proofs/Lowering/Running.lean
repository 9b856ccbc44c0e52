import Nodeflow.Lowering.Draft
import Nodeflow.Proofs.DataGraph.Wiring

/-!
# Steps of lowering

How a step of lowering ends: without a fault, either refused for a reason or with a draft of which
something is known.
-/

namespace Nodeflow

def Draft.socket? (d : Draft) (i : Nat) : Option DataSocket := d.sockets[i]?.getD none

namespace Lower

variable {α β : Type} {R : Prop} {d : Draft} {a : α} {Q : α → Draft → Prop}

/-- A step ends without a fault. It may be refused if `R` holds, and succeeds with a result else. -/
def Ends (R : Prop) (x : Lower α) (d : Draft) (Q : α → Draft → Prop) : Prop :=
  (R ∧ ∃ e, (x.run d).run = .ok (.error e)) ∨ ∃ a d', (x.run d).run = .ok (.ok (a, d')) ∧ Q a d'

namespace Ends

theorem pure (h : Q a d) : Ends R (pure a) d Q := .inr ⟨a, d, rfl, h⟩

theorem throw {e : LoweringError} (h : R) : Ends R (throw e : Lower α) d Q := .inl ⟨h, e, rfl⟩

theorem mono {x : Lower α} {Q' : α → Draft → Prop} (h : Ends R x d Q)
    (hpost : ∀ a d', Q a d' → Q' a d') : Ends R x d Q' :=
  h.imp_right fun ⟨a, d', hrun, ha⟩ => ⟨a, d', hrun, hpost a d' ha⟩

theorem bind {x : Lower α} {f : α → Lower β} {P : α → Draft → Prop} {Q : β → Draft → Prop}
    (hx : Ends R x d P) (hf : ∀ a d', P a d' → Ends R (f a) d' Q) : Ends R (x >>= f) d Q := by
  have hrun : ((x >>= f).run d).run = (x.run d).run >>= fun
      | .error e => .ok (.error e)
      | .ok (a, d') => ((f a).run d').run := by
    rw [StateT.run_bind, ExceptT.run_bind]
    congr 1
    funext result
    cases result <;> rfl
  rcases hx with ⟨hR, e, he⟩ | ⟨a, d', ha, hmid⟩
  · refine .inl ⟨hR, e, ?_⟩
    rw [hrun, he]
    rfl
  · rcases hf a d' hmid with ⟨hR, e, he⟩ | ⟨b, d'', hb, hpost⟩
    · refine .inl ⟨hR, e, ?_⟩
      rw [hrun, ha]
      exact he
    · refine .inr ⟨b, d'', ?_, hpost⟩
      rw [hrun, ha]
      exact hb

/-- After a step whose end is known, the rest starts there. -/
theorem step {x : Lower α} {f : α → Lower β} {d' : Draft} {Q : β → Draft → Prop}
    (hx : Ends R x d fun b d₁ => b = a ∧ d₁ = d') (hf : Ends R (f a) d' Q) : Ends R (x >>= f) d Q := by
  refine hx.bind ?_
  rintro _ _ ⟨rfl, rfl⟩
  exact hf

theorem lift {x : Except Fault α} (hx : x = .ok a) (h : Q a d) : Ends R (Lower.lift x) d Q := by
  subst hx
  exact .inr ⟨a, d, rfl, h⟩

theorem look {f : DataGraphBuilder → Except Fault α} (hf : f d.builder = .ok a) (h : Q a d) :
    Ends R (Lower.look f) d Q := by
  refine .inr ⟨a, d, ?_, h⟩
  change ((Lower.lift (f d.builder)).run d).run = _
  rw [hf]
  rfl

theorem socket {tree : Snapshot} {i : Nat} {s : SnapshotSocket} {Q : SnapshotSocket → Draft → Prop}
    (hs : tree.sockets[i]? = some s) (h : Q s d) : Ends R (Lower.socket tree i) d Q :=
  .lift (elementAt_eq_ok_iff.mpr hs) h

theorem mapped? {i : Nat} {Q : Option DataSocket → Draft → Prop} (h : Q (d.socket? i) d) :
    Ends R (Lower.mapped? i) d Q := .inr ⟨_, d, rfl, h⟩

theorem insert {tree : Snapshot} {f : Function} {node : Option SnapshotNode}
    {Q : DataNode → Draft → Prop} (h : Q ⟨d.builder.nodes.size⟩
      { d with builder := (d.builder.insert f (node.map fun n => ⟨tree.name, n.name⟩)).2 }) :
    Ends R (Lower.insert tree f node) d Q := .inr ⟨_, _, rfl, h⟩

theorem map {i : Nat} {s : DataSocket} {Q : Unit → Draft → Prop}
    (h : Q () { d with sockets := d.sockets.setIfInBounds i (some s) }) :
    Ends R (Lower.map i s) d Q := .inr ⟨(), _, rfl, h⟩

theorem link {o : OutputSocket} {i : InputSocket} {b : DataGraphBuilder}
    {Q : Except DataGraphError Unit → Draft → Prop} (hl : d.builder.link o i = .ok (.ok b))
    (h : Q (.ok ()) { d with builder := b }) : Ends R (Lower.link o i) d Q := by
  refine .step (.inr ⟨d, d, rfl, rfl, rfl⟩) ?_
  refine .step (.lift hl ⟨rfl, rfl⟩) ?_
  exact .inr ⟨.ok (), _, rfl, h⟩

theorem link_error {o : OutputSocket} {i : InputSocket} {e : DataGraphError}
    {Q : Except DataGraphError Unit → Draft → Prop} (hl : d.builder.link o i = .ok (.error e))
    (h : Q (.error e) d) : Ends R (Lower.link o i) d Q := by
  refine .step (.inr ⟨d, d, rfl, rfl, rfl⟩) ?_
  refine .step (.lift hl ⟨rfl, rfl⟩) ?_
  exact .inr ⟨.error e, _, rfl, h⟩

/-- What each step of a loop preserves holds at the end of the loop. -/
theorem forM {f : α → Lower PUnit} {xs : List α} (motive : List α → Draft → Prop) (hstart : motive [] d)
    (hstep : ∀ before x after d₁, xs = before ++ x :: after → motive before d₁ →
      Ends R (f x) d₁ fun _ d₂ => motive (before ++ [x]) d₂) :
    Ends R (xs.forM f) d fun _ d' => motive xs d' := by
  -- the loop may have come to any point of the list
  have hall (before after : List α) (d₁ : Draft) (hxs : xs = before ++ after) (hbefore : motive before d₁) :
      Ends R (after.forM f) d₁ fun _ d' => motive xs d' := by
    induction after generalizing before d₁ with
    | nil => exact .pure (by rwa [hxs, List.append_nil])
    | cons x after ih =>
        refine (hstep before x after d₁ hxs hbefore).bind fun _ d₂ h => ?_
        exact ih (before ++ [x]) d₂ (by rw [hxs, List.append_assoc, List.singleton_append]) h
  exact hall [] xs d rfl hstart

/-- Steps that only look at the draft are carried out one after another. -/
theorem mapM {f : α → Lower β} {xs : List α} {S : α → β → Prop}
    (hf : ∀ x ∈ xs, Ends R (f x) d fun y d' => d' = d ∧ S x y) :
    Ends R (xs.mapM f) d fun ys d' => d' = d ∧ List.Forall₂ S xs ys := by
  induction xs with
  | nil => exact .pure ⟨rfl, .nil⟩
  | cons x xs ih =>
      rw [List.mapM_cons]
      refine (hf x (by simp)).bind fun y d₁ hy => ?_
      obtain ⟨rfl, hy⟩ := hy
      refine (ih fun x' hx' => hf x' (by simp [hx'])).bind fun ys d₂ hys => ?_
      obtain ⟨rfl, hys⟩ := hys
      exact .pure ⟨rfl, .cons hy hys⟩

end Ends

end Lower

end Nodeflow
