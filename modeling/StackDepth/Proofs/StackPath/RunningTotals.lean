import Mathlib
import StackDepth.Proofs.StackPath.CallChains

/-!
# Running totals and the total of a path

The bytes of a path are added up twice. On the way down each node is given the running total up to
it; on the way back each node adds its contribution to the total of the path behind it. The labels
of a report show the first sum and its order comes from the second, so the two must agree.

Along a chain of routines they do (`last_cumulative_along`): what was taken before the chain and the
total of the chain make the running total at its last node. Whether this node is marked as a
recursion makes no difference. All paths that are found, and the worst path, run along such chains.
-/
namespace StackDepth

variable {n : Nat}

namespace StackPath

/-- Each node contributes what its routine takes with its return address, the running total of a
node is the sum of the contributions up to it, and the last running total is the total. -/
structure AddsUp (c : Catalogue n) (config : Config) (p : StackPath n) : Prop where
  contribution : ∀ node ∈ p.nodes,
    node.contribution = (c.routine node.routine).stackUsed + config.returnAddressBytes
  cumulative : ∀ k node, p.nodes[k]? = some node →
    node.cumulative = ((p.nodes.take (k + 1)).map (·.contribution)).sum
  total : p.total = p.last.cumulative

theorem nodes_extend (node : PathNode n) (p : StackPath n) :
    (p.extend node).nodes = node :: p.nodes := rfl

theorem last_extend (node : PathNode n) (p : StackPath n) : (p.extend node).last = p.last := by
  rw [last, last, extend, nodes, List.getLast?_cons, Option.getD_some]

section
variable (c : Catalogue n) (config : Config) (recursive : Bool) (running : Int) (i : Fin n)
variable (tail : List (Fin n))

theorem contribution_along : ∀ node ∈ (along c config recursive running i tail).nodes,
    node.contribution = (c.routine node.routine).contribution config := by
  induction tail generalizing running i with
  | nil =>
    intro node hnode
    rw [List.mem_singleton.1 hnode]
    rfl
  | cons j tail ih =>
    rw [along, nodes_extend]
    exact List.forall_mem_cons.2 ⟨rfl, ih (nodeOf c config running i).cumulative j⟩

theorem cumulative_along (k : Nat) (node : PathNode n)
    (h : (along c config recursive running i tail).nodes[k]? = some node) :
    node.cumulative = running +
      (((along c config recursive running i tail).nodes.take (k + 1)).map (·.contribution)).sum := by
  induction tail generalizing running i k with
  | nil =>
    obtain ⟨rfl, rfl⟩ : k = 0 ∧ { nodeOf c config running i with recursion := recursive } = node := by
      simpa [along, nodes, List.getElem?_singleton] using h
    simp [along, nodes, nodeOf]
  | cons j tail ih =>
    rw [along, nodes_extend] at h ⊢
    cases k with
    | zero =>
      cases h
      simp [nodeOf]
    | succ k =>
      have hbehind := ih (nodeOf c config running i).cumulative j k h
      have hfirst : (nodeOf c config running i).cumulative =
          running + (nodeOf c config running i).contribution := rfl
      rw [List.take_succ_cons, List.map_cons, List.sum_cons]
      omega

/-- What the way down has added up at the last node is what the way back adds up. -/
theorem last_cumulative_along : (along c config recursive running i tail).last.cumulative =
    running + (along c config recursive running i tail).total := by
  induction tail generalizing running i with
  | nil => rfl
  | cons j tail ih =>
    have htotal : (along c config recursive running i (j :: tail)).total =
        (along c config recursive (nodeOf c config running i).cumulative j tail).total +
          (nodeOf c config running i).contribution := rfl
    have hfirst : (nodeOf c config running i).cumulative =
        running + (nodeOf c config running i).contribution := rfl
    rw [htotal, along, last_extend, ih]
    omega

theorem addsUp_along : (along c config recursive 0 i tail).AddsUp c config where
  contribution := contribution_along c config recursive 0 i tail
  cumulative k node h := by
    rw [cumulative_along c config recursive 0 i tail k node h, Int.zero_add]
  total := by rw [last_cumulative_along, Int.zero_add]

end
end StackPath

/-- All paths from a routine of a resolved graph and its worst path add up, whatever was visited
before and whether or not they are cut off. -/
theorem paths_add_up (c : Catalogue n) (config : Config) (table : List (Fin n))
    (hclosed : c.Closed table) (root : Fin n) (hroot : root ∈ table) (visiting : AddressSet) :
    (∃ paths, (pathsWithin c config root visiting).outcome = .ok paths ∧
      ∀ p ∈ paths.toList, p.AddsUp c config) ∧
    ∃ worst, worstPath c config root = .ok worst ∧ worst.AddsUp c config := by
  have hadds : ∀ {keep visiting paths}, expand c config keep visiting 0 root = .ok paths →
      ∀ p ∈ paths.toList, p.AddsUp c config := by
    intro keep visiting paths hpaths p hp
    obtain ⟨tail, recursive, -, rfl⟩ := exists_trail_of_mem_expand hpaths hp
    exact StackPath.addsUp_along c config recursive root tail
  constructor
  · obtain ⟨paths, hpaths⟩ := hclosed.exists_expand config .all visiting 0 hroot
    refine ⟨paths, ?_, hadds hpaths⟩
    rw [pathsWithin, walk_eq_expand, hpaths]
  · obtain ⟨paths, hpaths⟩ := hclosed.exists_expand config .worst ∅ 0 hroot
    refine ⟨paths.first, ?_, hadds hpaths _ List.mem_cons_self⟩
    rw [worstPath_eq_expand, hpaths]
    rfl

open CallGraph (build)

/-- The worst path of `ping` goes through `pong` and is cut off where it comes back. -/
theorem paths_add_up_pingPong :
    (build pingPong (List.finRange 3)).catalogue.Closed pingPongGraph.order.toList ∧
      0 ∈ pingPongGraph.order.toList ∧
      ∃ worst, worstPath (build pingPong (List.finRange 3)).catalogue {} 0 = .ok worst ∧
        worst.isRecursive = true ∧ worst.nodes.map (·.contribution) = [6, 3, 6] ∧
        worst.nodes[1]?.map (·.cumulative) = some (6 + 3) ∧ worst.total = worst.last.cumulative := by
  have hclosed := (CallGraph.build_linked keyed_pingPong build_pingPong).isClosed
  have hroot : 0 ∈ pingPongGraph.order.toList := by decide
  obtain ⟨-, worst, hworst, hadds⟩ := paths_add_up _ {} _ hclosed 0 hroot ∅
  have hpath : worstPath (build pingPong (List.finRange 3)).catalogue {} 0 =
      .ok ⟨⟨0, 6, 6, false⟩, [⟨1, 3, 9, false⟩, ⟨0, 6, 15, true⟩], 15⟩ := by cbv
  rw [hpath] at hworst
  cases hworst
  refine ⟨hclosed, hroot, _, hpath, rfl, rfl, ?_, hadds.total⟩
  exact congrArg some (hadds.cumulative 1 _ rfl)

end StackDepth
