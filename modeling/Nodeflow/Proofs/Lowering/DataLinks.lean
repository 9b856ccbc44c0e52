import Nodeflow.Proofs.Lowering.Inserting
import Nodeflow.Proofs.Lowering.Sequence
import Nodeflow.Proofs.Snapshot.Faithful
import Nodeflow.Proofs.Tree.Offered

/-!
# Connections that carry no data

Lowering places the nodes of a tree without a look at its links, and what then stands for the sockets does not
change any more. Of the links only those from a data output to a data input are followed, so the others might as
well not be there.
-/

namespace Nodeflow

namespace Snapshot

variable {tree : Snapshot} {mapped : Nat → Option DataSocket} {i : Nat}

/-- A socket with other links. -/
def relink (socket : SnapshotSocket) (links : List Nat) : SnapshotSocket := { socket with links }

/-- The snapshot without its links. -/
def bare (s : Snapshot) : Snapshot := { s with sockets := s.sockets.map (relink · []) }

/-- The links of a socket that data goes along: those of a data input to data outputs. -/
def dataLinks (mapped : Nat → Option DataSocket) (i : Nat) (socket : SnapshotSocket) : List Nat :=
  if socket.isInput && (mapped i).any DataSocket.isInput then
    socket.links.filter fun a => (mapped a).any DataSocket.isOutput
  else []

/-- The snapshot with its data links only. -/
def narrowed (s : Snapshot) (mapped : Nat → Option DataSocket) : Snapshot :=
  { s with sockets := s.sockets.mapIdx fun i socket => relink socket (dataLinks mapped i socket) }

theorem getElem?_bare (s : Snapshot) (i : Nat) : s.bare.sockets[i]? = s.sockets[i]?.map (relink · []) :=
  Array.getElem?_map

theorem size_bare (s : Snapshot) : s.bare.sockets.size = s.sockets.size := Array.size_map

theorem getElem?_narrowed (s : Snapshot) (mapped : Nat → Option DataSocket) (i : Nat) :
    (s.narrowed mapped).sockets[i]? = s.sockets[i]?.map fun socket => relink socket (dataLinks mapped i socket) :=
  Array.getElem?_mapIdx

theorem bare_narrowed : (tree.narrowed mapped).bare = tree.bare := by
  refine Snapshot.ext rfl rfl (Array.ext_getElem? fun i => ?_)
  rw [getElem?_bare, getElem?_narrowed, getElem?_bare, Option.map_map]
  rfl

end Snapshot

namespace Lower

open Snapshot

variable {α β : Type} {tree : Snapshot} {config : Config} {node : SnapshotNode}

/-! ## Steps that do not look at links -/

theorem socket_bind_bare (i : Nat) (f : SnapshotSocket → Lower β) (hf : ∀ socket, f (relink socket []) = f socket) :
    Lower.socket tree.bare i >>= f = Lower.socket tree i >>= f := by
  rw [Lower.socket, Lower.socket, elementAt, elementAt, getElem?_bare, size_bare]
  cases tree.sockets[i]? with
  | none => rfl
  | some socket => exact hf socket

theorem parameter_bare (i : Nat) : parameter tree.bare node i = parameter tree node i :=
  socket_bind_bare i _ fun _ => rfl

theorem typesMatch_bare : typesMatch tree.bare = typesMatch tree := by
  funext sockets parameters
  have htype (i : Nat) : (tree.bare.sockets[i]?).bind (fun socket => socket.port.type.valueType?) =
      (tree.sockets[i]?).bind fun socket => socket.port.type.valueType? := by
    rw [getElem?_bare, Option.bind_map]
    rfl
  simp only [typesMatch, htype]

theorem mapSockets_bare : mapSockets tree.bare = mapSockets tree := by
  unfold mapSockets
  rw [typesMatch_bare]

theorem ofFunction_bare (f : Function) : Inserter.ofFunction f tree.bare node = Inserter.ofFunction f tree node := by
  rw [Inserter.ofFunction, Inserter.ofFunction, mapSockets_bare]
  rfl

theorem functionInput_bare : Inserter.functionInput tree.bare node = Inserter.functionInput tree node := by
  have hparameter : parameter tree.bare node = parameter tree node := funext parameter_bare
  simp only [Inserter.functionInput, hparameter]
  rfl

theorem functionOutput_bare : Inserter.functionOutput tree.bare node = Inserter.functionOutput tree node := by
  have hparameter : parameter tree.bare node = parameter tree node := funext parameter_bare
  simp only [Inserter.functionOutput, hparameter]
  rfl

theorem insertNode_bare : insertNode tree.bare (.builtin config) node = insertNode tree (.builtin config) node := by
  rw [insertNode, insertNode, Inserters.get?_builtin]
  cases Inserters.builtinFunctions.reverse.find? fun e => e.1 = node.idname with
  | some e => exact ofFunction_bare e.2
  | none =>
      simp only [Option.map_none, Option.none_or]
      split_ifs
      · exact functionOutput_bare
      · exact functionInput_bare
      · rfl

/-- The first phase of lowering. -/
def placeNodes (tree : Snapshot) (config : Config) (inserters : Inserters) : Lower Unit := do
  checkInterface tree config
  tree.nodes.toList.forM (insertNode tree inserters)

theorem placeNodes_bare : placeNodes tree.bare config (.builtin config) = placeNodes tree config (.builtin config) := by
  have hnode : insertNode tree.bare (.builtin config) = insertNode tree (.builtin config) :=
    funext fun _ => insertNode_bare
  rw [placeNodes, placeNodes, hnode]
  rfl

theorem insertTree_eq (inserters : Inserters) : insertTree tree config inserters =
    placeNodes tree config inserters >>= fun _ => linkInputs tree >>= fun _ => insertConstants tree := by
  rw [insertTree, placeNodes, bind_assoc]

theorem start_bare : Draft.start tree.bare = Draft.start tree := by
  rw [Draft.start, Draft.start, size_bare]

theorem forInputs_bare (visit : SnapshotSocket → InputSocket → Lower Unit) :
    forInputs tree.bare visit = forInputs tree fun socket => visit (relink socket []) := by
  rw [forInputs, bare, Array.toList_map, List.zipIdx_map]
  exact List.forM_map

theorem insertConstants_bare : insertConstants tree.bare = insertConstants tree := forInputs_bare _

theorem linkOrigin_bare (socket : SnapshotSocket) (target : InputSocket) (origin : Nat) :
    linkOrigin tree.bare (relink socket []) target origin = linkOrigin tree socket target origin := by
  unfold linkOrigin
  refine bind_congr fun place => ?_
  split
  · refine bind_congr fun result => ?_
    split
    · rfl
    · exact socket_bind_bare origin _ fun _ => rfl
  · rfl

/-! ## Steps that agree -/

variable {mapped : Nat → Option DataSocket} {x y z : Lower α} {i : Nat}

theorem run_bind_congr {f g : α → Lower β} {d : Draft}
    (h : ∀ a d', (x.run d).run = .ok (.ok (a, d')) → ((f a).run d').run = ((g a).run d').run) :
    ((x >>= f).run d).run = ((x >>= g).run d).run := by
  rw [StateT.run_bind, StateT.run_bind, ExceptT.run_bind, ExceptT.run_bind]
  rcases hx : (x.run d).run with fault | e | ⟨a, d'⟩
  · rfl
  · rfl
  · exact h a d' hx

theorem exists_of_run_bind {f : α → Lower β} {d d'' : Draft} {b : β} (h : ((x >>= f).run d).run = .ok (.ok (b, d''))) :
    ∃ a d', (x.run d).run = .ok (.ok (a, d')) ∧ ((f a).run d').run = .ok (.ok (b, d'')) := by
  rw [StateT.run_bind, ExceptT.run_bind] at h
  rcases hx : (x.run d).run with fault | e | ⟨a, d'⟩
  · rw [hx] at h
    cases h
  · rw [hx] at h
    cases h
  · rw [hx] at h
    exact ⟨a, d', rfl, h⟩

/-- While these data sockets stand for the sockets of a tree, the two steps do the same; where they return, the same
data sockets still do. -/
def AgreeOn (mapped : Nat → Option DataSocket) (x y : Lower α) : Prop :=
  ∀ ⦃d : Draft⦄, d.socket? = mapped → (x.run d).run = (y.run d).run ∧
    ∀ ⦃a d'⦄, (y.run d).run = .ok (.ok (a, d')) → d'.socket? = mapped

theorem AgreeOn.symm (h : AgreeOn mapped x y) : AgreeOn mapped y x :=
  fun _ hd => ⟨(h hd).1.symm, fun _ _ hx => (h hd).2 ((h hd).1.symm.trans hx)⟩

theorem AgreeOn.trans (hxy : AgreeOn mapped x y) (hyz : AgreeOn mapped y z) : AgreeOn mapped x z :=
  fun _ hd => ⟨(hxy hd).1.trans (hyz hd).1, (hyz hd).2⟩

theorem agreeOn_pure (a : α) : AgreeOn mapped (pure a) (pure a) := by
  refine fun d hd => ⟨rfl, fun b d' h => ?_⟩
  cases h
  exact hd

theorem agreeOn_throw (e : LoweringError) : AgreeOn mapped (throw e : Lower α) (throw e) :=
  fun _ _ => ⟨rfl, fun _ _ h => nomatch h⟩

theorem AgreeOn.bind {f g : α → Lower β} (hxy : AgreeOn mapped x y) (hfg : ∀ a, AgreeOn mapped (f a) (g a)) :
    AgreeOn mapped (x >>= f) (y >>= g) := by
  intro d hd
  obtain ⟨heq, hkeep⟩ := hxy hd
  constructor
  · calc ((x >>= f).run d).run = ((y >>= f).run d).run := by
          rw [StateT.run_bind, StateT.run_bind, ExceptT.run_bind, ExceptT.run_bind, heq]
      _ = ((y >>= g).run d).run := run_bind_congr fun a d' hy => (hfg a (hkeep hy)).1
  · intro b d'' h
    obtain ⟨a, d', hy, hg⟩ := exists_of_run_bind h
    exact (hfg a (hkeep hy)).2 hg

theorem agreeOn_lift (result : Except Fault α) : AgreeOn mapped (lift result) (lift result) := by
  refine fun d hd => ⟨rfl, fun a d' h => ?_⟩
  cases result with
  | error fault => cases h
  | ok b =>
      cases h
      exact hd

theorem agreeOn_look (f : DataGraphBuilder → Except Fault α) : AgreeOn mapped (look f) (look f) :=
  fun d hd => agreeOn_lift (f d.builder) hd

theorem agreeOn_insert (f : Function) (source : Option SnapshotNode) :
    AgreeOn mapped (insert tree f source) (insert tree f source) := by
  refine fun d hd => ⟨rfl, fun n d' h => ?_⟩
  cases h
  exact hd

theorem agreeOn_link (source : OutputSocket) (target : InputSocket) :
    AgreeOn mapped (link source target) (link source target) := by
  refine fun d hd => ⟨rfl, fun a d' h => ?_⟩
  unfold link at h
  obtain ⟨draft, d₁, hget, h⟩ := exists_of_run_bind h
  cases hget
  obtain ⟨result, d₂, hresult, h⟩ := exists_of_run_bind h
  cases result with
  | error e =>
      cases h
      exact (agreeOn_lift _ hd).2 hresult
  | ok builder =>
      cases h
      exact hd

theorem agreeOn_mapped? {f : Option DataSocket → Lower β} {y : Lower β} (h : AgreeOn mapped (f (mapped i)) y) :
    AgreeOn mapped (mapped? i >>= f) y := by
  rintro d rfl
  exact h rfl

theorem AgreeOn.mapped? {f g : Option DataSocket → Lower β} (h : AgreeOn mapped (f (mapped i)) (g (mapped i))) :
    AgreeOn mapped (mapped? i >>= f) (mapped? i >>= g) := agreeOn_mapped? (agreeOn_mapped? h.symm).symm

theorem AgreeOn.forM {f g : α → Lower PUnit} {xs : List α} (h : ∀ x ∈ xs, AgreeOn mapped (f x) (g x)) :
    AgreeOn mapped (xs.forM f) (xs.forM g) := by
  induction xs with
  | nil => exact agreeOn_pure _
  | cons x xs ih =>
      obtain ⟨hx, hxs⟩ := List.forall_mem_cons.mp h
      exact hx.bind fun _ => ih hxs

/-- Steps that do nothing can be left out of a loop. -/
theorem AgreeOn.forM_filter {f : α → Lower PUnit} {xs : List α} {keep : α → Bool} (h : ∀ x, AgreeOn mapped (f x) (f x))
    (hskip : ∀ x, keep x = false → AgreeOn mapped (f x) (pure ⟨⟩)) :
    AgreeOn mapped (xs.forM f) ((xs.filter keep).forM f) := by
  induction xs with
  | nil => exact agreeOn_pure _
  | cons x xs ih =>
      cases hx : keep x with
      | true =>
          rw [List.filter_cons_of_pos hx]
          exact (h x).bind fun _ => ih
      | false =>
          rw [List.filter_cons_of_neg (by simp [hx])]
          exact (hskip x hx).bind fun _ => ih

/-! ## Following the links -/

theorem agreeOn_linkConverted (source : OutputSocket) (target : InputSocket) :
    AgreeOn mapped (linkConverted tree source target) (linkConverted tree source target) := by
  unfold linkConverted
  refine (agreeOn_look _).bind fun sourceType => (agreeOn_look _).bind fun targetType => ?_
  split
  · exact agreeOn_link source target
  · split
    · exact agreeOn_pure _
    · refine (agreeOn_insert _ _).bind fun node => (agreeOn_look _).bind fun input => (agreeOn_look _).bind fun output => ?_
      refine (agreeOn_link source input).bind fun result => ?_
      split
      · exact agreeOn_pure _
      · exact agreeOn_link output target

theorem agreeOn_linkOrigin (socket : SnapshotSocket) (target : InputSocket) (origin : Nat) :
    AgreeOn mapped (linkOrigin tree socket target origin) (linkOrigin tree socket target origin) := by
  unfold linkOrigin
  refine .mapped? ?_
  split
  · refine (agreeOn_linkConverted _ target).bind fun result => ?_
    split
    · exact agreeOn_pure _
    · exact (agreeOn_lift _).bind fun _ => agreeOn_throw _
  · exact agreeOn_pure _

theorem agreeOn_linkOrigin_skip {origin : Nat} (h : (mapped origin).any DataSocket.isOutput = false)
    (socket : SnapshotSocket) (target : InputSocket) :
    AgreeOn mapped (linkOrigin tree socket target origin) (pure ()) := by
  unfold linkOrigin
  refine agreeOn_mapped? ?_
  split
  · rename_i source hmapped
    rw [hmapped] at h
    cases h
  · exact agreeOn_pure _

theorem linkOrigin_narrowed (socket : SnapshotSocket) (links : List Nat) (target : InputSocket) (origin : Nat) :
    linkOrigin (tree.narrowed mapped) (relink socket links) target origin = linkOrigin tree socket target origin := by
  rw [← linkOrigin_bare, bare_narrowed]
  exact linkOrigin_bare socket target origin

theorem forInputs_narrowed (visit : SnapshotSocket → InputSocket → Lower Unit) :
    forInputs (tree.narrowed mapped) visit = tree.sockets.toList.zipIdx.forM fun (socket, i) => do
      if socket.isInput then
        match ← mapped? i with
        | some (.input input) => visit (relink socket (dataLinks mapped i socket)) input
        | _ => return := by
  have hsockets : (tree.narrowed mapped).sockets.toList.zipIdx =
      tree.sockets.toList.zipIdx.map fun (socket, i) => (relink socket (dataLinks mapped i socket), i) := by
    refine List.ext_getElem? fun i => ?_
    rw [List.getElem?_map, List.getElem?_zipIdx, List.getElem?_zipIdx, Array.getElem?_toList, Array.getElem?_toList,
      getElem?_narrowed, Option.map_map, Option.map_map]
    simp [Function.comp_def]
  rw [forInputs, hsockets]
  exact List.forM_map

/-- Only the links that data goes along are followed. -/
theorem agreeOn_linkInputs (tree : Snapshot) (mapped : Nat → Option DataSocket) :
    AgreeOn mapped (linkInputs tree) (linkInputs (tree.narrowed mapped)) := by
  rw [linkInputs, linkInputs, forInputs_narrowed, forInputs]
  refine AgreeOn.forM ?_
  rintro ⟨socket, i⟩ -
  dsimp only
  split
  · rename_i hin
    refine .mapped? ?_
    rcases hplace : mapped i with _ | input | output
    · exact agreeOn_pure _
    · have hlinks : dataLinks mapped i socket = socket.links.filter fun a => (mapped a).any DataSocket.isOutput := by
        rw [dataLinks, hin, hplace]
        rfl
      dsimp only
      rw [hlinks, funext (linkOrigin_narrowed socket _ input)]
      exact .forM_filter (agreeOn_linkOrigin socket input) fun a ha => agreeOn_linkOrigin_skip ha socket input
    · exact agreeOn_pure _
  · exact agreeOn_pure _

theorem agreeOn_insertConstants (tree : Snapshot) (mapped : Nat → Option DataSocket) :
    AgreeOn mapped (insertConstants tree) (insertConstants tree) := by
  rw [insertConstants, forInputs]
  refine AgreeOn.forM ?_
  rintro ⟨socket, i⟩ -
  dsimp only
  split
  · refine .mapped? ?_
    split
    · refine (agreeOn_look _).bind fun linked => ?_
      split
      · exact agreeOn_pure _
      · refine (agreeOn_look _).bind fun type => (agreeOn_lift _).bind fun owner => (agreeOn_insert _ _).bind fun node => ?_
        refine (agreeOn_look _).bind fun output => (agreeOn_link _ _).bind fun result => ?_
        split
        · exact agreeOn_pure _
        · exact agreeOn_throw _
    · exact agreeOn_pure _
  · exact agreeOn_pure _

/-! ## Snapshots with the same data links -/

theorem agreeOn_linkInputs_of_narrowed {tree' : Snapshot} (h : tree'.narrowed mapped = tree.narrowed mapped) :
    AgreeOn mapped (linkInputs tree') (linkInputs tree) :=
  (agreeOn_linkInputs tree' mapped).trans (h ▸ (agreeOn_linkInputs tree mapped).symm)

/-- Trees that differ in their links only are lowered alike, if the same data links are in them as soon as their nodes
have been placed. -/
theorem run_insertTree_of_narrowed {tree' : Snapshot} (hbare : tree'.bare = tree.bare)
    (hlinks : ∀ d, ((placeNodes tree config (.builtin config)).run (.start tree)).run = .ok (.ok ((), d)) →
      tree'.narrowed d.socket? = tree.narrowed d.socket?) :
    ((insertTree tree' config (.builtin config)).run (.start tree')).run =
      ((insertTree tree config (.builtin config)).run (.start tree)).run := by
  have hplace : placeNodes tree' config (.builtin config) = placeNodes tree config (.builtin config) := by
    rw [← placeNodes_bare, hbare, placeNodes_bare]
  have hconstants : insertConstants tree' = insertConstants tree := by
    rw [← insertConstants_bare, hbare, insertConstants_bare]
  have hstart : Draft.start tree' = Draft.start tree := by
    rw [← start_bare, hbare, start_bare]
  rw [insertTree_eq, insertTree_eq, hplace, hconstants, hstart]
  refine run_bind_congr fun _ d hplaced => ?_
  have hrest := (agreeOn_linkInputs_of_narrowed (hlinks d hplaced)).bind fun _ => agreeOn_insertConstants tree d.socket?
  exact (hrest rfl).1

theorem socket?_of_run_insertTree {d' : Draft} (h : ((insertTree tree config (.builtin config)).run (.start tree)).run =
    .ok (.ok ((), d'))) : ∃ d, ((placeNodes tree config (.builtin config)).run (.start tree)).run = .ok (.ok ((), d)) ∧
      d'.socket? = d.socket? := by
  rw [insertTree_eq] at h
  obtain ⟨_, d, hplace, hrest⟩ := exists_of_run_bind h
  have hkeep : AgreeOn d.socket? (linkInputs tree >>= fun _ => insertConstants tree)
      (linkInputs tree >>= fun _ => insertConstants tree) :=
    (agreeOn_linkInputs_of_narrowed rfl).bind fun _ => agreeOn_insertConstants tree d.socket?
  exact ⟨d, hplace, (hkeep rfl).2 hrest⟩

end Lower

namespace Tree

open Snapshot

variable {t : Tree} {config : Config} {kept : ConnectionId × Connection → Bool} {i a : Nat}

/-- The tree without some of its connections. -/
def restrict (t : Tree) (kept : ConnectionId × Connection → Bool) : Tree :=
  { t with connections := ⟨t.connections.entries.filter kept⟩ }

/-- What stands for a socket of the tree, if its nodes can be placed. -/
def loweredTo? (t : Tree) (config : Config) (i : Nat) : Option DataSocket :=
  match ((Lower.placeNodes (ofTree t) config (.builtin config)).run (.start (ofTree t))).run with
  | .ok (.ok ((), d)) => d.socket? i
  | _ => none

/-- A data output stands for the first socket, and a data input for the second one, which is an input. -/
def feeds (t : Tree) (config : Config) (a i : Nat) : Bool :=
  ((ofTree t).sockets[i]?).any SnapshotSocket.isInput && (t.loweredTo? config i).any DataSocket.isInput &&
    (t.loweredTo? config a).any DataSocket.isOutput

/-- A connection joins an input that a data input stands for and a port that a data output stands for. -/
def isDataLink (t : Tree) (config : Config) (c : Connection) : Bool :=
  ((ofTree t).ends (c.source.port, c.target.port)).any fun (a, b) => t.feeds config a b || t.feeds config b a

theorem owners_restrict : (ofTree (t.restrict kept)).owners = (ofTree t).owners :=
  (owners_ofTree _).trans (owners_ofTree t).symm

theorem values_restrict : (t.restrict kept).connections.values = (t.connections.entries.toList.filter kept).map Prod.snd := by
  rw [restrict, OrderedMap.values, Array.toList_filter]

/-- What some connections add to the links of a socket. -/
def linksOf (t : Tree) (cs : List Connection) (i : Nat) : List Nat :=
  (cs.filterMap fun c => (ofTree t).ends (c.source.port, c.target.port)).flatMap (added i)

theorem linksOf_cons (t : Tree) (c : Connection) (cs : List Connection) (i : Nat) : t.linksOf (c :: cs) i =
    ((ofTree t).ends (c.source.port, c.target.port)).elim [] (added i) ++ t.linksOf cs i := by
  rw [linksOf, linksOf, List.filterMap_cons]
  cases (ofTree t).ends (c.source.port, c.target.port) <;> rfl

theorem getElem?_restrict (i : Nat) : (ofTree (t.restrict kept)).sockets[i]? = (ofTree t).sockets[i]?.map fun socket =>
    relink socket (t.linksOf (t.restrict kept).connections.values i) := by
  have hends : (ofTree (t.restrict kept)).ends = (ofTree t).ends := funext (ends_of_eq owners_restrict)
  have hunlinked : unlinked (t.restrict kept) = unlinked t := rfl
  have hsocket := getElem?_ofTree (t.restrict kept) i
  rw [hends, hunlinked] at hsocket
  rw [getElem?_ofTree t, Option.map_map]
  cases hfirst : (unlinked t).sockets[i]? with
  | none =>
      rw [hsocket, hfirst]
      rfl
  | some first =>
      rw [hfirst] at hsocket
      have hlinks := links_eq hsocket
      rw [hends] at hlinks
      rw [hsocket]
      exact congrArg (fun links => some (relink first links)) hlinks

theorem bare_restrict : (ofTree (t.restrict kept)).bare = (ofTree t).bare := by
  refine Snapshot.ext ((name_ofTree _).trans (name_ofTree t).symm) ((nodes_ofTree _).trans (nodes_ofTree t).symm)
    (Array.ext_getElem? fun i => ?_)
  rw [getElem?_bare, getElem?_bare, getElem?_restrict, Option.map_map]
  rfl

/-- A connection that carries no data adds no data link. -/
theorem filter_added (hin : ((ofTree t).sockets[i]?).any SnapshotSocket.isInput)
    (hplace : (t.loweredTo? config i).any DataSocket.isInput) {c : Connection} (hc : t.isDataLink config c = false) :
    (((ofTree t).ends (c.source.port, c.target.port)).elim [] (added i)).filter
      (fun a => (t.loweredTo? config a).any DataSocket.isOutput) = [] := by
  have hfeeds {a : Nat} (h : t.feeds config a i = false) : (t.loweredTo? config a).any DataSocket.isOutput = false := by
    rw [feeds, hin, hplace] at h
    exact h
  rw [isDataLink] at hc
  rcases hends : (ofTree t).ends (c.source.port, c.target.port) with _ | ⟨a, b⟩
  · rfl
  · rw [hends, Option.any_some, Bool.or_eq_false_iff] at hc
    rw [Option.elim_some, added, List.filter_append, List.append_eq_nil_iff]
    constructor
    · split
      · rename_i ha
        subst ha
        simp [hfeeds hc.2]
      · rfl
    · split
      · rename_i hb
        subst hb
        simp [hfeeds hc.1]
      · rfl

theorem filter_linksOf_restrict (hin : ((ofTree t).sockets[i]?).any SnapshotSocket.isInput)
    (hplace : (t.loweredTo? config i).any DataSocket.isInput)
    (hkept : ∀ entry ∈ t.connections.entries, t.isDataLink config entry.2 → kept entry) :
    (t.linksOf (t.restrict kept).connections.values i).filter (fun a => (t.loweredTo? config a).any DataSocket.isOutput) =
      (t.linksOf t.connections.values i).filter fun a => (t.loweredTo? config a).any DataSocket.isOutput := by
  have hentries : ∀ entry ∈ t.connections.entries.toList, t.isDataLink config entry.2 → kept entry :=
    fun entry hentry => hkept entry (Array.mem_toList_iff.mp hentry)
  rw [values_restrict, OrderedMap.values]
  generalize t.connections.entries.toList = entries at hentries
  induction entries with
  | nil => rfl
  | cons entry entries ih =>
      obtain ⟨hentry, hrest⟩ := List.forall_mem_cons.mp hentries
      rw [List.map_cons, linksOf_cons, List.filter_append]
      cases hk : kept entry with
      | true => rw [List.filter_cons_of_pos hk, List.map_cons, linksOf_cons, List.filter_append, ih hrest]
      | false =>
          have hnot : t.isDataLink config entry.2 = false := by
            rw [← Bool.not_eq_true]
            exact fun h => absurd (hentry h) (by simp [hk])
          rw [List.filter_cons_of_neg (by simp [hk]), ih hrest, filter_added hin hplace hnot, List.nil_append]

theorem narrowed_restrict (hkept : ∀ entry ∈ t.connections.entries, t.isDataLink config entry.2 → kept entry) :
    (ofTree (t.restrict kept)).narrowed (t.loweredTo? config) = (ofTree t).narrowed (t.loweredTo? config) := by
  refine Snapshot.ext ((name_ofTree _).trans (name_ofTree t).symm) ((nodes_ofTree _).trans (nodes_ofTree t).symm)
    (Array.ext_getElem? fun i => ?_)
  rw [getElem?_narrowed, getElem?_narrowed, getElem?_restrict, Option.map_map]
  cases hs : (ofTree t).sockets[i]? with
  | none => rfl
  | some socket =>
      refine congrArg (fun links => some (relink socket links)) (ite_congr rfl (fun hfed => ?_) fun _ => rfl)
      obtain ⟨hin, hplace⟩ := (Bool.and_eq_true _ _).mp hfed
      rw [links_eq hs]
      exact filter_linksOf_restrict (by rwa [hs]) hplace hkept

/-- Only connections that carry data matter: without any of the others, a tree ends in the same error, or in the same
data graph under the same sockets. -/
theorem only_data_links_matter (hkept : ∀ entry ∈ t.connections.entries, t.isDataLink config entry.2 → kept entry) :
    (ofTree (t.restrict kept)).lower config (.builtin config) = (ofTree t).lower config (.builtin config) ∧
      ∀ lowered, (ofTree t).lower config (.builtin config) = .ok (.ok lowered) →
        ∀ i, lowered.socket? i = t.loweredTo? config i := by
  constructor
  · rw [Snapshot.lower, Snapshot.lower, Lower.run_insertTree_of_narrowed bare_restrict]
    intro d hplaced
    have hplace : t.loweredTo? config = d.socket? := by
      funext i
      rw [loweredTo?, hplaced]
    rw [← hplace, narrowed_restrict hkept]
  · intro lowered h i
    obtain ⟨result, hrun, h⟩ := bind_eq_ok_iff.mp h
    rcases result with e | ⟨⟨⟩, d'⟩
    · cases h
    obtain ⟨built, -, h⟩ := bind_eq_ok_iff.mp h
    rcases built with e | graph
    · cases h
    cases h
    obtain ⟨d, hplaced, hsame⟩ := Lower.socket?_of_run_insertTree hrun
    rw [loweredTo?, hplaced]
    exact congrFun hsame i

/-- The sum of a float and a whole number, with wires at a placeholder, between two inputs, between two outputs and to
an unknown port. -/
def strayWires : Tree where
  name := mixedSum.name
  nodes := mixedSum.nodes
  connections := .ofList [wire 0 2 6, wire 1 0 3, wire 2 3 4, wire 3 4 1, wire 4 0 9, wire 5 5 6, wire 6 0 5, wire 7 1 7]

theorem only_data_links_matter_strayWires :
    strayWires.connections.values.map (strayWires.isDataLink {}) = [false, true, false, true, false, true, false, true] ∧
    (ofTree (strayWires.restrict fun entry => strayWires.isDataLink {} entry.2)).lower {} (.builtin {}) =
      (ofTree strayWires).lower {} (.builtin {}) ∧
    ∃ lowered, (ofTree strayWires).lower {} (.builtin {}) = .ok (.ok lowered) ∧
      lowered.socket? 3 = strayWires.loweredTo? {} 3 := by
  have hkept : ∀ entry ∈ strayWires.connections.entries,
      strayWires.isDataLink {} entry.2 → strayWires.isDataLink {} entry.2 := fun _ _ h => h
  obtain ⟨hsame, hplaces⟩ := only_data_links_matter hkept
  refine ⟨by decide +kernel, hsame, ?_⟩
  have hok : (((ofTree strayWires).lower {} (.builtin {})).toOption.bind Except.toOption).isSome = true := by
    decide +kernel
  rcases hlower : (ofTree strayWires).lower {} (.builtin {}) with fault | e | lowered
  · rw [hlower] at hok
    cases hok
  · rw [hlower] at hok
    cases hok
  · exact ⟨lowered, rfl, hplaces lowered hlower 3⟩

end Tree

end Nodeflow
