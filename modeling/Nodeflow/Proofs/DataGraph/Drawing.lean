import Nodeflow.DataGraph.Dot
import Nodeflow.Proofs.DataGraph.Frozen
import Nodeflow.Proofs.Ron.Quoted

/-!
# Drawings that can be read

The drawing of a data graph has one line for each node and one for each input. A name is quoted and stays
within the line of its node, so the text shows the labels of the nodes and the arrows between them.
-/

namespace Nodeflow

namespace Text

theorem newline_notMem_toDigits {base : Nat} (hone : 1 < base) (hbase : base ≤ 16) (n : Nat) :
    '\n' ∉ Nat.toDigits base n := by
  intro hmem
  obtain ⟨d, hd, heq⟩ := exists_digitChar_of_mem_toDigits hone hmem
  have hlt : d < 16 := Nat.lt_of_lt_of_le hd hbase
  clear hd hmem
  revert heq
  decide +revert

theorem newline_notMem_byNumber (c : Char) : '\n' ∉ byNumber c := by
  have hdigits : '\n' ∉ Nat.toDigits 16 c.toNat := newline_notMem_toDigits (by decide) (by decide) _
  simp [byNumber, hdigits]

theorem newline_notMem_escape (c : Char) : '\n' ∉ escape false c := by
  by_cases hnewline : c = '\n'
  · subst hnewline
    decide
  · unfold escape
    -- a letter behind a backslash, a number, or the character itself
    split_ifs
    iterate 6 decide
    · exact newline_notMem_byNumber c
    · exact fun hmem => hnewline (List.mem_singleton.mp hmem).symm

theorem newline_notMem_quote (text : String) : '\n' ∉ (quote text).toList := by
  simp [quote, quoteWith, newline_notMem_escape]

/-- A quoted text ends at its closing quote, and shows what was quoted. -/
theorem quote_append_inj {s t : String} {rest rest' : List Char}
    (h : (quote s).toList ++ rest = (quote t).toList ++ rest') : s = t ∧ rest = rest' := by
  have hread (u : String) (rest : List Char) : ((quote u).toList ++ rest).tail =
      u.toList.flatMap (escape false) ++ '"' :: rest := by
    simp [quote, quoteWith]
  have hsame := congrArg (fun text => Ron.quotedRest text.tail) h
  simpa only [hread, Ron.quotedRest_flatMap_escape, Option.some.injEq, Prod.mk.injEq, String.toList_inj] using hsame

/-- A number ends in front of the first character that is no digit. -/
theorem toDigits_append_inj {m n : Nat} {c d : Char} {rest rest' : List Char} (hc : c.isDigit = false)
    (hd : d.isDigit = false) (h : Nat.toDigits 10 m ++ c :: rest = Nat.toDigits 10 n ++ d :: rest') :
    m = n ∧ c = d ∧ rest = rest' := by
  have htake {k : Nat} {c : Char} {rest : List Char} (hc : c.isDigit = false) :
      (Nat.toDigits 10 k ++ c :: rest).takeWhile Char.isDigit = Nat.toDigits 10 k := by
    rw [List.takeWhile_append_of_pos fun _ hmem => Nat.isDigit_of_mem_toDigits (by decide) (by decide) hmem,
      List.takeWhile_cons_of_neg (by simp [hc]), List.append_nil]
  have hdigits : Nat.toDigits 10 m = Nat.toDigits 10 n := by
    rw [← htake hc, h, htake hd]
  rw [hdigits, List.append_cancel_left_eq, List.cons.injEq] at h
  have hread (k : Nat) : digitsValue? 10 (Nat.toDigits 10 k) = some k := digitsValue?_toDigits (by decide) (by decide) k
  exact ⟨Option.some.inj ((hread m).symm.trans ((congrArg _ hdigits).trans (hread n))), h⟩

theorem splitOn_lines {lines : List String} (h : ∀ line ∈ lines, '\n' ∉ line.toList) :
    (String.join (lines.map (· ++ "\n"))).toList.splitOn '\n' = lines.map String.toList ++ [[]] := by
  have hjoin : (String.join (lines.map (· ++ "\n"))).toList = ['\n'].intercalate (lines.map String.toList ++ [[]]) := by
    clear h
    induction lines with
    | nil => rfl
    | cons line lines ih =>
        obtain ⟨next, rest, hcons⟩ := List.exists_cons_of_ne_nil
          (List.append_ne_nil_of_right_ne_nil (lines.map String.toList) (List.cons_ne_nil [] []))
        rw [List.map_cons, String.join_cons, String.toList_append, ih, List.map_cons, List.cons_append, hcons,
          List.intercalate_cons_cons]
        simp
  rw [hjoin, List.splitOn_intercalate '\n' _ (by simp)]
  simpa [or_imp, forall_and] using h

end Text

/-- An arrow of a drawing: an output of one node that an input of another takes its value from. -/
structure Arrow where
  source : Nat
  output : Nat
  target : Nat
  input : Nat
  deriving DecidableEq, Repr

namespace DataGraph

variable {g h : DataGraph} {text : String}

/-- The line of a node. -/
def box (index : Nat) (name : String) : String :=
  "  n" ++ toString index ++ " [shape=box, label=" ++ Text.quote name ++ "];"

/-- The line of an input. -/
def line (a : Arrow) : String :=
  "  n" ++ toString a.source ++ " -> n" ++ toString a.target ++ " [taillabel=\"" ++ toString a.output ++
    "\", headlabel=\"" ++ toString a.input ++ "\"];"

/-- The lines that show some labels and some arrows. -/
def drawing (labels : List String) (arrows : List Arrow) : List String :=
  "digraph \x7b" :: "  rankdir=LR;" ::
    ((labels.zipIdx.map fun (name, i) => box i name) ++ (arrows.map line ++ ["\x7d"]))

def labels (g : DataGraph) : List String := g.nodes.toList.map label

def arrow? (g : DataGraph) (e : InputEntry OutputSocket) : Option Arrow :=
  (g.outputs[e.origin.index]?).map fun o => ⟨o.node.index, o.position, e.node.index, e.position⟩

/-- The arrows to the inputs, in order. -/
def arrows (g : DataGraph) : List Arrow := g.inputs.toList.filterMap g.arrow?

/-! ## Lines -/

theorem newline_notMem_drawing (labels : List String) (arrows : List Arrow) :
    ∀ line ∈ drawing labels arrows, '\n' ∉ line.toList := by
  simp only [drawing, List.mem_cons, List.mem_append, List.mem_map, List.not_mem_nil, or_false]
  rintro _ (rfl | rfl | ⟨⟨name, i⟩, -, rfl⟩ | ⟨a, -, rfl⟩ | rfl)
  · decide
  · decide
  · simp [box, Text.newline_notMem_quote, Text.newline_notMem_toDigits]
  · simp [line, Text.newline_notMem_toDigits]
  · decide

theorem length_drawing (labels : List String) (arrows : List Arrow) :
    (drawing labels arrows).length = labels.length + arrows.length + 3 := by
  simp [drawing]
  omega

theorem drawing_set {labels : List String} {i : Nat} (hi : i < labels.length) (name : String) (arrows : List Arrow) :
    drawing (labels.set i name) arrows = (drawing labels arrows).set (i + 2) (box i name) := by
  have hboxes : ((labels.set i name).zipIdx.map fun (name, i) => box i name) =
      (labels.zipIdx.map fun (name, i) => box i name).set i (box i name) := by
    refine List.ext_getElem? fun k => ?_
    simp only [List.getElem?_map, List.getElem?_zipIdx, List.getElem?_set, List.length_map, List.length_zipIdx]
    by_cases hk : i = k
    · subst hk
      simp [hi]
    · simp [hk]
  rw [drawing, drawing, hboxes, List.set_cons_succ, List.set_cons_succ, List.set_append, if_pos (by simpa using hi)]

/-! ## Reading lines -/

theorem box_inj {i : Nat} {s t : String} (h : box i s = box i t) : s = t := by
  simp only [box, String.append_assoc] at h
  have hchars : (Text.quote s).toList ++ "];".toList = (Text.quote t).toList ++ "];".toList := by
    simpa using congrArg String.toList h
  exact (Text.quote_append_inj hchars).1

theorem line_inj {a b : Arrow} (h : line a = line b) : a = b := by
  have hchars := congrArg String.toList h
  simp only [line, Nat.toString_eq_repr, String.toList_append, String.reduceToList, Nat.toList_repr, List.cons_append,
    List.nil_append, List.append_assoc, List.cons.injEq, true_and] at hchars
  obtain ⟨hsource, -, hchars⟩ := Text.toDigits_append_inj (by decide) (by decide) hchars
  simp only [List.cons.injEq, true_and] at hchars
  obtain ⟨htarget, -, hchars⟩ := Text.toDigits_append_inj (by decide) (by decide) hchars
  simp only [List.cons.injEq, true_and] at hchars
  obtain ⟨houtput, -, hchars⟩ := Text.toDigits_append_inj (by decide) (by decide) hchars
  simp only [List.cons.injEq, true_and] at hchars
  obtain ⟨hinput, -, -⟩ := Text.toDigits_append_inj (by decide) (by decide) hchars
  cases a
  cases b
  simp_all only

theorem box_ne_line (i : Nat) (name : String) (a : Arrow) : box i name ≠ line a := by
  intro h
  have hchars := congrArg String.toList h
  simp only [box, line, Nat.toString_eq_repr, String.toList_append, String.reduceToList, Nat.toList_repr,
    List.cons_append, List.nil_append, List.append_assoc, List.cons.injEq, true_and] at hchars
  obtain ⟨-, -, hchars⟩ := Text.toDigits_append_inj (by decide) (by decide) hchars
  simp at hchars

theorem box_notMem_arrows (i : Nat) (name : String) (arrows : List Arrow) :
    box i name ∉ arrows.map line ++ ["\x7d"] := by
  simp only [List.mem_append, List.mem_map, List.mem_singleton, not_or, not_exists, not_and]
  exact ⟨fun a _ heq => box_ne_line i name a heq.symm, fun heq => by simpa [box] using congrArg String.toList heq⟩

/-- The boxes end where the arrows begin, and the arrows at the closing brace. -/
theorem boxes_append_inj {names names' : List String} {arrows arrows' : List Arrow} {start : Nat}
    (h : ((names.zipIdx start).map fun (name, i) => box i name) ++ (arrows.map line ++ ["\x7d"]) =
      ((names'.zipIdx start).map fun (name, i) => box i name) ++ (arrows'.map line ++ ["\x7d"])) :
    names = names' ∧ arrows = arrows' := by
  induction names generalizing names' start with
  | nil =>
      cases names' with
      | nil => exact ⟨rfl, List.map_injective_iff.mpr (fun _ _ => line_inj) (List.append_cancel_right h)⟩
      | cons name names' => exact (box_notMem_arrows start name arrows (h ▸ List.mem_cons_self)).elim
  | cons name names ih =>
      cases names' with
      | nil => exact (box_notMem_arrows start name arrows' (h ▸ List.mem_cons_self)).elim
      | cons name' names' =>
          obtain ⟨hhead, htail⟩ := List.cons.inj h
          obtain ⟨rfl, rfl⟩ := ih htail
          exact ⟨by rw [box_inj hhead], rfl⟩

theorem drawing_inj {names names' : List String} {arrows arrows' : List Arrow}
    (h : drawing names arrows = drawing names' arrows') : names = names' ∧ arrows = arrows' :=
  boxes_append_inj (List.cons.inj (List.cons.inj h).2).2

/-! ## The text of a drawing -/

theorem arrowLine_eq_ok_iff {e : InputEntry OutputSocket} {text : String} :
    g.arrowLine e = .ok text ↔ ∃ a, g.arrow? e = some a ∧ text = line a ++ "\n" := by
  rw [arrowLine, bind_eq_ok_iff]
  simp only [Wiring.output_eq_ok_iff, arrow?, Option.map_eq_some_iff]
  constructor
  · rintro ⟨o, ho, htext⟩
    exact ⟨_, ⟨o, ho, rfl⟩, by simpa [line, String.append_assoc] using (Except.ok.inj htext).symm⟩
  · rintro ⟨_, ⟨o, ho, rfl⟩, rfl⟩
    exact ⟨o, ho, by simp [line, String.append_assoc, pure, Except.pure]⟩

theorem mapM_arrowLine {entries : List (InputEntry OutputSocket)} {lines : List String}
    (h : entries.mapM g.arrowLine = .ok lines) : lines = (entries.filterMap g.arrow?).map (line · ++ "\n") ∧
      (entries.filterMap g.arrow?).length = entries.length := by
  induction mapM_eq_ok_iff.mp h with
  | nil => exact ⟨rfl, rfl⟩
  | cons hline hlines ih =>
      obtain ⟨a, ha, rfl⟩ := arrowLine_eq_ok_iff.mp hline
      obtain ⟨htext, hlength⟩ := ih (mapM_eq_ok_iff.mpr hlines)
      simp [ha, htext, hlength]

theorem boxLine_eq (index : Nat) (n : NodeEntry) : boxLine index n = box index (label n) ++ "\n" := by
  simp [boxLine, box, String.append_assoc]

/-- The text of a graph is its drawing, with an arrow for each input. -/
theorem dot_eq_drawing (h : g.dot = .ok text) :
    text = String.join ((drawing g.labels g.arrows).map (· ++ "\n")) ∧ g.arrows.length = g.inputs.size := by
  obtain ⟨lines, hlines, htext⟩ := bind_eq_ok_iff.mp h
  obtain ⟨rfl, hlength⟩ := mapM_arrowLine hlines
  refine ⟨?_, hlength⟩
  have hboxes : (g.nodes.toList.zipIdx.map fun entry => boxLine entry.2 entry.1) =
      (g.labels.zipIdx.map fun (name, i) => box i name).map (· ++ "\n") := by
    simp only [labels, List.zipIdx_map, List.map_map, boxLine_eq]
    rfl
  have harrows : (g.inputs.toList.filterMap g.arrow?).map (line · ++ "\n") = (g.arrows.map line).map (· ++ "\n") := by
    simp [arrows]
  have hparts : "digraph \x7b\n  rankdir=LR;\n" ++ String.join (g.nodes.toList.zipIdx.map fun entry => boxLine entry.2 entry.1) ++
      String.join ((g.inputs.toList.filterMap g.arrow?).map (line · ++ "\n")) ++ "\x7d\n" = text :=
    pure_eq_ok_iff.mp htext
  rw [← hparts, hboxes, harrows, drawing, ← String.toList_inj]
  simp only [List.map_cons, List.map_append, List.map_nil, String.join_cons, String.join_append]
  simp

theorem Frozen.exists_dot (h : g.Frozen) : ∃ text, g.dot = .ok text := by
  obtain ⟨arrows, harrows⟩ := exists_forall₂ (l := g.inputs.toList) (R := fun e line => g.arrowLine e = .ok line)
    fun e he => by
      obtain ⟨s, hs⟩ := List.mem_iff_getElem?.mp he
      rw [Array.getElem?_toList] at hs
      obtain ⟨type, htype, -⟩ := h.typed hs
      obtain ⟨origin, -, -, ho, -⟩ := Wiring.outputType_eq_ok_iff.mp htype
      rw [arrowLine, Wiring.output_eq_ok_iff.mpr ho]
      exact ⟨_, rfl⟩
  rw [dot, mapM_eq_ok_iff.mpr harrows]
  exact ⟨_, rfl⟩

/-- The text of a graph has one line for each node, one for each input and three more, whatever the names are:
a label alters the line of its node only, and graphs with the same text show the same labels and arrows. -/
theorem dot_determines_drawing (hbuilt : g.Built) : ∃ text, g.dot = .ok text ∧
    text.toList.splitOn '\n' = (drawing g.labels g.arrows).map String.toList ++ [[]] ∧
    (drawing g.labels g.arrows).length = g.nodes.size + g.inputs.size + 3 ∧
    (∀ i name, i < g.nodes.size →
      drawing (g.labels.set i name) g.arrows = (drawing g.labels g.arrows).set (i + 2) (box i name)) ∧
    ∀ h : DataGraph, h.dot = .ok text →
      h.nodes.size = g.nodes.size ∧ h.inputs.size = g.inputs.size ∧ h.labels = g.labels ∧ h.arrows = g.arrows := by
  have hlabels (g : DataGraph) : g.labels.length = g.nodes.size := by
    simp [labels]
  obtain ⟨text, htext⟩ := hbuilt.frozen.exists_dot
  obtain ⟨hlines, harrows⟩ := dot_eq_drawing htext
  have hsplit := Text.splitOn_lines (newline_notMem_drawing g.labels g.arrows)
  rw [← hlines] at hsplit
  refine ⟨text, htext, hsplit, ?_, fun i name hi => drawing_set (by rwa [hlabels]) name _, fun h hsame => ?_⟩
  · rw [length_drawing, hlabels, harrows]
  · obtain ⟨hlines', harrows'⟩ := dot_eq_drawing hsame
    have hsplit' := Text.splitOn_lines (newline_notMem_drawing h.labels h.arrows)
    rw [← hlines', hsplit] at hsplit'
    have hdrawing := List.map_injective_iff.mpr (fun _ _ => String.toList_inj.mp) (List.append_cancel_right hsplit')
    obtain ⟨hsameLabels, hsameArrows⟩ := drawing_inj hdrawing
    exact ⟨by rw [← hlabels, ← hlabels, hsameLabels], by rw [← harrows, ← harrows', hsameArrows], hsameLabels.symm,
      hsameArrows.symm⟩

/-- A node whose name would end its line, linked to one whose label would escape the closing quote. -/
def disguised : DataGraph where
  nodes := #[⟨⟨"\"];\n  n1 -> n0", #[], #[⟨"x", .float⟩], []⟩, none, 0, 0⟩,
    ⟨⟨"y\\", #[⟨"x", .float⟩], #[], []⟩, some ⟨"tree", "\u0000\\"⟩, 0, 1⟩]
  inputs := #[⟨⟨1⟩, 0, ⟨0⟩⟩]
  outputs := #[⟨⟨0⟩, 0, [⟨0⟩]⟩]

theorem built_disguised : disguised.Built := by
  have hinserted := (DataGraphBuilder.Reachable.empty.insert
    ⟨"\"];\n  n1 -> n0", #[], #[⟨"x", .float⟩], []⟩ none).insert
      ⟨"y\\", #[⟨"x", .float⟩], #[], []⟩ (some ⟨"tree", "\u0000\\"⟩)
  have hlinked : DataGraphBuilder.Reachable ⟨disguised.nodes, #[⟨⟨1⟩, 0, some ⟨0⟩⟩], disguised.outputs⟩ :=
    hinserted.link ⟨0⟩ ⟨0⟩ (by with_unfolding_all rfl)
  have harrows : disguised.nodes.toList.mapM disguised.feeders = .ok [[], [0]] := rfl
  exact .of_reachable hlinked harrows (by decide +kernel)

theorem dot_determines_disguised : disguised.Built ∧ disguised.arrows = [⟨0, 0, 1, 0⟩] ∧
    disguised.labels = ["\"];\n  n1 -> n0", "y\\ (\u0000\\)"] ∧
    ∃ text, disguised.dot = .ok text ∧ (text.toList.splitOn '\n').length = 6 + 1 := by
  obtain ⟨text, htext, hsplit, hlength, -⟩ := dot_determines_drawing built_disguised
  refine ⟨built_disguised, rfl, rfl, text, htext, ?_⟩
  rw [hsplit, List.length_append, List.length_map, hlength]
  rfl

end DataGraph

end Nodeflow
