import StackDepth.Proofs.StackPath.CallChains
import StackDepth.Proofs.StackPath.Survey

/-!
# The paths from a routine out of those from its callees

Behind a routine the recursion goes on with the bytes that the path has taken so far. They show in
the running totals of the nodes and nowhere else: with more bytes in front, the same paths are
found, and their running totals are larger by these bytes (`expand_shift`).

So the paths from a routine with callees are what walks of their own find from the callees, once
the routine's address is visited as well, each path put under the routine's node
(`toList_expand_callees`). With the routines that are cut off and the leaves this gives the paths
from every routine of a resolved graph.
-/
namespace StackDepth

variable {n : Nat}

/-! ### Moving running totals -/

/-- The node on a path with so many more bytes in front. -/
def PathNode.shift (bytes : Int) (node : PathNode n) : PathNode n :=
  { node with cumulative := node.cumulative + bytes }

namespace StackPath

def shift (bytes : Int) (p : StackPath n) : StackPath n :=
  ⟨p.first.shift bytes, p.rest.map (·.shift bytes), p.total⟩

/-- The path that goes on behind a node: what the node contributes comes on top of the total and
of all running totals. -/
def under (node : PathNode n) (p : StackPath n) : StackPath n :=
  ⟨node, p.nodes.map (·.shift node.contribution), p.total + node.contribution⟩

theorem extend_shift (node : PathNode n) (p : StackPath n) :
    (p.shift node.contribution).extend node = p.under node := rfl

end StackPath

namespace PathList

def shift (bytes : Int) (paths : PathList n) : PathList n :=
  ⟨paths.first.shift bytes, paths.others.map (·.shift bytes)⟩

theorem toList_shift (bytes : Int) (paths : PathList n) :
    (paths.shift bytes).toList = paths.toList.map (·.shift bytes) := rfl

theorem shift_append (bytes : Int) (paths more : PathList n) :
    (paths.append more).shift bytes = (paths.shift bytes).append (more.shift bytes) := by
  simp [shift, append, toList]

theorem shift_extend (bytes : Int) (node : PathNode n) (paths : PathList n) :
    (paths.extend node).shift bytes = (paths.shift bytes).extend (node.shift bytes) := by
  simp only [shift, extend, List.map_map]
  rfl

end PathList

theorem Keep.add_all_shift (bytes : Int) (kept : Option (PathList n)) (paths : PathList n) :
    Keep.all.add (kept.map (·.shift bytes)) (paths.shift bytes) =
      (Keep.all.add kept paths).shift bytes := by
  cases kept with
  | none => rfl
  | some kept => exact (kept.shift_append bytes paths).symm

theorem Frame.paths_shift (bytes : Int) (node : PathNode n) (suffixes : Option (PathList n)) :
    Frame.paths ⟨node.shift bytes, [], suffixes.map (·.shift bytes)⟩ =
      (Frame.paths ⟨node, [], suffixes⟩).shift bytes := by
  cases suffixes with
  | none => rfl
  | some suffixes => exact (suffixes.shift_extend bytes node).symm

theorem collect_shift (bytes : Int) (explore : Fin n → Except GraphError (PathList n))
    (kept : Option (PathList n)) (callees : List (Fin n)) :
    collect .all (fun j => (explore j).map (·.shift bytes)) (kept.map (·.shift bytes)) callees =
      (collect .all explore kept callees).map (Option.map (·.shift bytes)) := by
  induction callees generalizing kept with
  | nil => rfl
  | cons callee later ih =>
    rw [collect, collect]
    cases explore callee with
    | error e => rfl
    | ok paths =>
      have hlater := ih (some (Keep.all.add kept paths))
      rw [Option.map_some, ← Keep.add_all_shift] at hlater
      exact hlater

theorem nodeOf_shift (c : Catalogue n) (config : Config) (running bytes : Int) (i : Fin n) :
    nodeOf c config (running + bytes) i = (nodeOf c config running i).shift bytes := by
  simp only [nodeOf, PathNode.shift, PathNode.mk.injEq, true_and, and_true]
  omega

/-- Bytes taken before a routine move the running totals of the paths from it, and nothing else. -/
theorem expand_shift (c : Catalogue n) (config : Config) (visiting : AddressSet)
    (running bytes : Int) (i : Fin n) :
    expand c config .all visiting (running + bytes) i =
      (expand c config .all visiting running i).map (·.shift bytes) := by
  induction visiting, i using c.visit_induction generalizing running with
  | visited visiting i hvisited =>
    rw [expand_visited hvisited, expand_visited hvisited, nodeOf_shift]
    rfl
  | unresolved visiting i hfresh hcallees =>
    rw [expand_unresolved hfresh hcallees, expand_unresolved hfresh hcallees]
    rfl
  | resolved visiting i callees hfresh hcallees ih =>
    have hcumulative : (nodeOf c config (running + bytes) i).cumulative =
        (nodeOf c config running i).cumulative + bytes := by rw [nodeOf_shift]; rfl
    have hexplore : expand c config .all (visiting.insert (c.start i))
          (nodeOf c config (running + bytes) i).cumulative =
        fun j => (expand c config .all (visiting.insert (c.start i))
          (nodeOf c config running i).cumulative j).map (·.shift bytes) := by
      funext j
      rw [hcumulative, ih]
    have hcollect := collect_shift bytes (expand c config .all (visiting.insert (c.start i))
      (nodeOf c config running i).cumulative) none callees
    rw [Option.map_none] at hcollect
    rw [expand_resolved hfresh hcallees, expand_resolved hfresh hcallees, hexplore, hcollect,
      nodeOf_shift]
    cases collect .all (expand c config .all (visiting.insert (c.start i))
        (nodeOf c config running i).cumulative) none callees with
    | error e => rfl
    | ok suffixes => exact congrArg Except.ok (Frame.paths_shift bytes _ suffixes)

/-! ### The callees one after another -/

theorem flatMap_found {α : Type} {explore : α → Except GraphError (PathList n)} {l : List α}
    {lists : List (PathList n)} (h : l.mapM explore = .ok lists) :
    (l.flatMap fun a => found (explore a)) = lists.flatMap (·.toList) := by
  induction l generalizing lists with
  | nil =>
    cases h
    rfl
  | cons a rest ih =>
    obtain ⟨first, others, hfirst, hothers, rfl⟩ := mapM_cons_eq_ok_iff.1 h
    rw [List.flatMap_cons, List.flatMap_cons, hfirst, ih hothers]
    rfl

/-- The paths from a routine with callees are those that are found from the callees, in their
order, each under the routine's node. -/
theorem toList_expand_callees {c : Catalogue n} {config : Config} {visiting : AddressSet}
    {i : Fin n} {callees : List (Fin n)} {paths : PathList n} (hfresh : c.start i ∉ visiting)
    (hcallees : c.callees? i = some callees) (hne : callees ≠ [])
    (h : expand c config .all visiting 0 i = .ok paths) :
    ∃ lists, callees.mapM (expand c config .all (visiting.insert (c.start i)) 0) = .ok lists ∧
      paths.toList = lists.flatMap fun behind =>
        behind.toList.map (·.under (nodeOf c config 0 i)) := by
  have hshift : expand c config .all (visiting.insert (c.start i))
        (nodeOf c config 0 i).cumulative =
      fun j => (expand c config .all (visiting.insert (c.start i)) 0 j).map
        (·.shift (nodeOf c config 0 i).contribution) :=
    funext fun j => expand_shift c config _ 0 _ j
  obtain ⟨shifted, hshifted⟩ := exists_mapM_ok (expand_callee_ok hfresh hcallees h)
  have hpaths := toList_expand_all hfresh hcallees hne h
  rw [flatMap_found hshifted] at hpaths
  rw [hshift, mapM_map] at hshifted
  cases hlists : callees.mapM (expand c config .all (visiting.insert (c.start i)) 0) with
  | error e =>
    rw [hlists] at hshifted
    cases hshifted
  | ok lists =>
    rw [hlists] at hshifted
    cases hshifted
    refine ⟨lists, rfl, ?_⟩
    rw [hpaths, List.flatMap_map, List.map_flatMap]
    refine List.flatMap_congr fun behind _ => ?_
    rw [PathList.toList_shift, List.map_map]
    exact List.map_congr_left fun p _ => StackPath.extend_shift _ p

/-- From every routine of a resolved graph and with any addresses visited before, the walk finds
the paths that a recursion describes. A visited routine is cut off. A routine without callees is a
path by itself. All others have the paths that walks from their callees find, in the order of the
callees, each of them under the routine's own node. -/
theorem pathsWithin_unfold (c : Catalogue n) (config : Config) (table : List (Fin n))
    (hclosed : c.Closed table) (i : Fin n) (hi : i ∈ table) (visiting : AddressSet) :
    let node := nodeOf c config 0 i
    ∃ paths callees, (pathsWithin c config i visiting).outcome = .ok paths ∧
      c.callees i = .ok callees ∧
      (c.start i ∈ visiting →
        paths.toList = [⟨{ node with recursion := true }, [], node.contribution⟩]) ∧
      (c.start i ∉ visiting → callees = [] → paths.toList = [⟨node, [], node.contribution⟩]) ∧
      (c.start i ∉ visiting → callees ≠ [] → ∃ lists,
        callees.mapM (fun j => (pathsWithin c config j (visiting.insert (c.start i))).outcome) =
          .ok lists ∧
        paths.toList = lists.flatMap fun behind => behind.toList.map (·.under node)) := by
  intro node
  obtain ⟨callees, hcallees, -⟩ := hclosed i hi
  obtain ⟨paths, hpaths⟩ := hclosed.exists_expand config .all visiting 0 hi
  refine ⟨paths, callees, ?_, ?_, ?_, ?_, ?_⟩
  · rw [pathsWithin, walk_eq_expand, hpaths]
  · rw [Catalogue.callees, hcallees]
  · intro hvisited
    rw [expand_visited hvisited] at hpaths
    cases hpaths
    rfl
  · rintro hfresh rfl
    rw [expand_leaf hfresh hcallees] at hpaths
    cases hpaths
    rfl
  · intro hfresh hne
    simp only [pathsWithin, walk_eq_expand]
    exact toList_expand_callees hfresh hcallees hne hpaths

open CallGraph (build)

/-- With `pong` visited before, `ping` calls one routine that is cut off and one leaf. -/
theorem pathsWithin_unfold_pingPong :
    (build pingPong (List.finRange 3)).catalogue.Closed pingPongGraph.order.toList ∧
      0 ∈ pingPongGraph.order.toList ∧
      ∃ paths, (pathsWithin (build pingPong (List.finRange 3)).catalogue {} 0
          (AddressSet.ofList [0x20])).outcome = .ok paths ∧
        paths.toList =
          [⟨⟨0, 6, 6, false⟩, [⟨1, 3, 9, true⟩], 9⟩,
           ⟨⟨0, 6, 6, false⟩, [⟨2, 2, 8, false⟩], 8⟩] := by
  have hclosed := (CallGraph.build_linked keyed_pingPong build_pingPong).isClosed
  have hmem : ∀ i : Fin 3, i ∈ pingPongGraph.order.toList := by decide
  have hstart : (build pingPong (List.finRange 3)).catalogue.start = pingPong.start :=
    Catalogue.start_congr (CallGraph.build_ok build_pingPong).1
  have hping : (build pingPong (List.finRange 3)).catalogue.callees 0 = .ok [1, 2] := by cbv
  have hleaf : (build pingPong (List.finRange 3)).catalogue.callees 2 = .ok [] := by cbv
  have hunfold := fun i => pathsWithin_unfold _ {} _ hclosed i (hmem i)
  obtain ⟨paths, _, hpaths, hcallees, -, -, hbehind⟩ := hunfold 0 (.ofList [0x20])
  obtain ⟨pong, _, hpong, -, hcut, -, -⟩ := hunfold 1 (.ofList [0x10, 0x20])
  obtain ⟨leaf, _, hleaf', hnone, -, hend, -⟩ := hunfold 2 (.ofList [0x10, 0x20])
  cases hping.symm.trans hcallees
  cases hleaf.symm.trans hnone
  rw [hstart] at hbehind hcut hend
  have hinsert : (AddressSet.ofList [0x20]).insert (pingPong.start 0) = .ofList [0x10, 0x20] := by
    decide
  rw [hinsert] at hbehind
  obtain ⟨lists, hlists, htoList⟩ := hbehind (by decide) (by decide)
  obtain ⟨_, _, hfirst, hrest, rfl⟩ := mapM_cons_eq_ok_iff.1 hlists
  obtain ⟨_, _, hsecond, hdone, rfl⟩ := mapM_cons_eq_ok_iff.1 hrest
  cases hpong.symm.trans hfirst
  cases hleaf'.symm.trans hsecond
  cases hdone
  refine ⟨hclosed, hmem 0, paths, hpaths, ?_⟩
  rw [htoList, List.flatMap_cons, List.flatMap_cons, hcut (by decide), hend (by decide) rfl]
  cbv

end StackDepth
