import Mathlib
import StackDepth.Proofs.StackPath.CallChains

/-!
# The worst path bounds every call chain

Where no routine within reach takes a negative number of bytes, the worst path takes at least as
many as any call chain does, whether or not the chain is complete. An incomplete chain ends in a
routine that has callees and is not on the chain before; entering one of them makes the chain
longer and not lighter. This comes to an end, since routines on a chain are different.
-/
namespace StackDepth

variable {n : Nat}

theorem sum_map_le_of_prefix {weight : Fin n → Int} {chain longer : List (Fin n)}
    (h : chain <+: longer) (hweight : ∀ i ∈ longer, 0 ≤ weight i) :
    (chain.map weight).sum ≤ (longer.map weight).sum := by
  obtain ⟨rest, rfl⟩ := h
  have hrest : 0 ≤ (rest.map weight).sum := by
    refine List.sum_nonneg fun x hx => ?_
    obtain ⟨i, hi, rfl⟩ := List.mem_map.1 hx
    exact hweight i (List.mem_append_right _ hi)
  rw [List.map_append, List.sum_append]
  omega

namespace CallChain

variable {c : Catalogue n} {root last : Fin n} {init : List (Fin n)}

theorem reachable (h : CallChain c root init last) :
    ∀ i ∈ init ++ [last], Relation.ReflTransGen c.Calls root i := by
  refine h.calls.induction (Relation.ReflTransGen c.Calls root) _
    (fun i j hij hi => hi.tail hij) ?_
  intro hne
  have hhead := h.head
  rw [List.head?_eq_some_head hne] at hhead
  cases hhead
  exact .refl

theorem length_le (h : CallChain c root init last) : init.length ≤ n := by
  have hsub : init.Subperm (List.finRange n) :=
    List.subperm_of_subset h.distinct fun i _ => List.mem_finRange i
  simpa using hsub.length_le

theorem prolong (h : CallChain c root init last) (hlast : last ∉ init) {j : Fin n}
    (hj : c.Calls last j) : CallChain c root (init ++ [last]) j := by
  refine ⟨?_, ?_, ?_⟩
  · rw [List.head?_append_of_ne_nil _ (by simp)]
    exact h.head
  · refine h.calls.append (.singleton j) ?_
    intro x hx y hy
    rw [List.getLast?_concat] at hx
    cases hx
    cases hy
    exact hj
  · exact List.nodup_append.2 ⟨h.distinct, List.nodup_singleton last, by
      intro x hx y hy
      rw [List.mem_singleton.1 hy]
      exact fun heq => hlast (heq ▸ hx)⟩

/-- Every call chain can be prolonged to a complete one, since with each call there are fewer
routines that are not on it. -/
theorem exists_complete_prefix (h : CallChain c root init last) :
    ∃ init' last', CallChain c root init' last' ∧ Complete c init' last' ∧
      init ++ [last] <+: init' ++ [last'] := by
  induction hk : n - init.length using Nat.strongRecOn generalizing init last with
  | ind k ih =>
  by_cases hlast : last ∈ init
  · exact ⟨init, last, h, .inr hlast, List.prefix_rfl⟩
  · cases hcallees : CallGraph.calleesOf c last with
    | nil => exact ⟨init, last, h, .inl ⟨hlast, hcallees⟩, List.prefix_rfl⟩
    | cons j callees =>
      have hcalls : c.Calls last j := mem_calleesOf.1 (hcallees ▸ List.mem_cons_self)
      have hlonger := h.prolong hlast hcalls
      have hlength := hlonger.length_le
      rw [List.length_append, List.length_singleton] at hlength
      obtain ⟨init', last', hchain, hcomplete, hprefix⟩ :=
        ih _ (by rw [List.length_append, List.length_singleton]; omega) hlonger rfl
      exact ⟨init', last', hchain, hcomplete, (List.prefix_append _ _).trans hprefix⟩

/-- A prolonged chain weighs no less, where no routine within reach has a negative weight. -/
theorem exists_complete {weight : Fin n → Int} (h : CallChain c root init last)
    (hweight : ∀ i, Relation.ReflTransGen c.Calls root i → 0 ≤ weight i) :
    ∃ init' last', CallChain c root init' last' ∧ Complete c init' last' ∧
      ((init ++ [last]).map weight).sum ≤ ((init' ++ [last']).map weight).sum := by
  obtain ⟨init', last', hchain, hcomplete, hprefix⟩ := h.exists_complete_prefix
  refine ⟨init', last', hchain, hcomplete, sum_map_le_of_prefix hprefix ?_⟩
  exact fun i hi => hweight i (hchain.reachable i hi)

end CallChain

theorem total_of_mem_expand {c : Catalogue n} {config : Config} {visiting : AddressSet}
    {running : Int} {i : Fin n} {paths : PathList n} {p : StackPath n}
    (h : expand c config .all visiting running i = .ok paths) (hp : p ∈ paths.toList) :
    p.total = (p.chain.map fun j => (c.routine j).contribution config).sum := by
  obtain ⟨tail, recursive, -, rfl⟩ := (mem_expand_iff h p).1 hp
  rw [StackPath.total_along, StackPath.chain_along]

open CallGraph (build)

/-- The worst path of a routine in a built call graph takes no fewer bytes than any call chain
from there, if all contributions within reach are non-negative. -/
theorem callChain_le_worstPath {c : Catalogue n} {table : List (Fin n)} {g : CallGraph n}
    (config : Config) {root : Fin n} (hkeyed : c.Keyed table)
    (hbuild : (build c table).result = .ok g) (hroot : root ∈ g.order.toList)
    (hnonneg : ∀ i, Relation.ReflTransGen (build c table).catalogue.Calls root i →
      0 ≤ ((build c table).catalogue.routine i).contribution config) :
    ∃ worst, worstPath (build c table).catalogue config root = .ok worst ∧
      ∀ init last, CallChain (build c table).catalogue root init last →
        ((init ++ [last]).map fun i =>
          ((build c table).catalogue.routine i).contribution config).sum ≤ worst.total := by
  have hlinked := CallGraph.build_linked hkeyed hbuild
  obtain ⟨paths, hpaths⟩ := hlinked.exists_expand config .all ∅ 0 hroot
  refine ⟨paths.largest, ?_, ?_⟩
  · rw [worstPath_eq_largest, pathsFrom_eq_expand, hpaths]
    rfl
  · intro init last hchain
    obtain ⟨init', last', hchain', hcomplete, hle⟩ := hchain.exists_complete hnonneg
    obtain ⟨p, hp, hpchain⟩ :=
      List.mem_map.1 ((hlinked.mem_chains_iff hroot hpaths).2 ⟨hchain', hcomplete⟩)
    rw [← hpchain, ← total_of_mem_expand hpaths hp] at hle
    exact hle.trans (paths.largest_isFirstLargest.le hp)

theorem callChain_le_worstPath_pingPong :
    pingPong.Keyed (List.finRange 3) ∧
    (build pingPong (List.finRange 3)).result = .ok pingPongGraph ∧
    0 ∈ pingPongGraph.order.toList ∧
    (∀ i, Relation.ReflTransGen (build pingPong (List.finRange 3)).catalogue.Calls 0 i →
      0 ≤ ((build pingPong (List.finRange 3)).catalogue.routine i).contribution {}) ∧
    ∃ worst, worstPath (build pingPong (List.finRange 3)).catalogue {} 0 = .ok worst ∧
      15 ≤ worst.total := by
  have hroot : 0 ∈ pingPongGraph.order.toList := by decide
  have hroutines := (CallGraph.build_ok build_pingPong).1
  have hnonneg : ∀ i, Relation.ReflTransGen (build pingPong (List.finRange 3)).catalogue.Calls 0 i →
      0 ≤ ((build pingPong (List.finRange 3)).catalogue.routine i).contribution {} := by
    intro i hreach
    clear hreach
    rw [Catalogue.routine, hroutines]
    revert i
    decide
  obtain ⟨worst, hworst, hbound⟩ :=
    callChain_le_worstPath {} keyed_pingPong build_pingPong hroot hnonneg
  refine ⟨keyed_pingPong, build_pingPong, hroot, hnonneg, worst, hworst, ?_⟩
  have hle := hbound [0, 1] 0 callChain_pingPong
  simp only [Catalogue.routine, hroutines] at hle
  exact hle

end StackDepth
