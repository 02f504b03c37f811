import Mathlib
import StackDepth.Proofs.CallGraph.Callers
import StackDepth.Proofs.StackPath.Survey
import StackDepth.Proofs.StackPath.WorstCaseBound

/-!
# What the paths from the roots cover

The paths from a routine lead to all routines within reach of it and to no others. A routine within
reach is the end of a call chain without repetition, since a chain that comes back to a routine can
be cut off there; and such a chain can be prolonged to a complete one, which is a path.

Routines that are only within reach of a cycle without callers are on no path from a root. Where
there are no cycles, going from a routine to a caller of it must come to an end in a finite graph,
and it ends at a root. Then the paths from the roots cover the whole graph.
-/
namespace StackDepth

variable {n : Nat}

namespace CallChain

variable {c : Catalogue n} {root i last : Fin n} {init : List (Fin n)}

/-- A chain without repetition can be cut off at any of its routines. -/
theorem exists_cut (h : CallChain c root init last) (hlast : last ∉ init)
    (hi : i ∈ init ++ [last]) : ∃ before, CallChain c root before i ∧ i ∉ before := by
  have hdistinct : (init ++ [last]).Nodup := by
    rw [← List.concat_eq_append]
    exact h.distinct.concat hlast
  obtain ⟨before, behind, hsplit⟩ := List.append_of_mem hi
  have hhead := h.head
  have hcalls := h.calls
  rw [hsplit, List.append_cons] at hhead hcalls hdistinct
  obtain ⟨hnodup, -, -⟩ := List.nodup_append.1 hdistinct
  rw [← List.concat_eq_append, List.nodup_concat] at hnodup
  rw [List.head?_append_of_ne_nil _ (by simp)] at hhead
  exact ⟨before, ⟨hhead, hcalls.left_of_append, hnodup.2⟩, hnodup.1⟩

theorem exists_of_reachable (h : Relation.ReflTransGen c.Calls root i) :
    ∃ init, CallChain c root init i ∧ i ∉ init := by
  induction h with
  | refl => exact ⟨[], ⟨rfl, .singleton root, List.nodup_nil⟩, List.not_mem_nil⟩
  | @tail i j _ hcalls ih =>
    obtain ⟨init, hchain, hi⟩ := ih
    by_cases hj : j ∈ init ++ [i]
    · exact hchain.exists_cut hi hj
    · exact ⟨init ++ [i], hchain.prolong hi hcalls, hj⟩

end CallChain

/-- The paths from a routine of a graph lead to all routines within reach, and to no others. -/
theorem Catalogue.Linked.exists_path_iff_reachable {c : Catalogue n} {table : List (Fin n)}
    (h : c.Linked table) {config : Config} {root : Fin n} {paths : PathList n}
    (hroot : root ∈ table) (hpaths : pathsFrom c config root = .ok paths) (i : Fin n) :
    (∃ p ∈ paths.toList, i ∈ p.chain) ↔ Relation.ReflTransGen c.Calls root i := by
  rw [pathsFrom_eq_expand] at hpaths
  constructor
  · intro hi
    obtain ⟨p, hp, hi⟩ := hi
    have hne : p.chain ≠ [] := List.cons_ne_nil _ _
    have hsplit := List.dropLast_append_getLast hne
    have hmem := List.mem_map_of_mem (f := StackPath.chain) hp
    rw [← hsplit] at hi hmem
    exact ((h.mem_chains_iff hroot hpaths).1 hmem).1.reachable i hi
  · intro hreach
    obtain ⟨init, hchain, -⟩ := CallChain.exists_of_reachable hreach
    obtain ⟨init', last', hchain', hcomplete, hprefix⟩ := hchain.exists_complete_prefix
    obtain ⟨p, hp, hpchain⟩ :=
      List.mem_map.1 ((h.mem_chains_iff hroot hpaths).2 ⟨hchain', hcomplete⟩)
    refine ⟨p, hp, ?_⟩
    rw [hpchain]
    exact hprefix.subset (by simp)

namespace CallGraph

variable {c : Catalogue n} {table : List (Fin n)} {g : CallGraph n}

/-- Where no routine of the graph is within reach of itself, each is within reach of a root. -/
theorem exists_root_of_acyclic (hkeyed : c.Keyed table) (hbuild : (build c table).result = .ok g)
    (hacyclic : ∀ i ∈ g.order.toList,
      ¬ Relation.TransGen (build c table).catalogue.Calls i i) :
    ∀ i ∈ g.order.toList,
      ∃ root ∈ g.roots, Relation.ReflTransGen (build c table).catalogue.Calls root i := by
  let above := fun i j => i ∈ g.order.toList ∧
    Relation.TransGen (build c table).catalogue.Calls i j
  have htrans : IsTrans (Fin n) above := ⟨fun i j k hij hjk => ⟨hij.1, hij.2.trans hjk.2⟩⟩
  have hirrefl : Std.Irrefl above := ⟨fun i hi => hacyclic i hi.1 hi.2⟩
  have hwf : WellFounded above := Finite.wellFounded_of_trans_of_irrefl above
  intro j
  induction j using hwf.induction with
  | _ j ih =>
  intro hj
  by_cases hroot : j ∈ g.roots
  · exact ⟨j, hroot, .refl⟩
  · have hcaller : ∃ i ∈ g.order.toList, j ∈ calleesOf (build c table).catalogue i := by
      by_contra hnone
      push Not at hnone
      exact hroot ((mem_roots_iff hkeyed hbuild).2 ⟨hj, hnone⟩)
    obtain ⟨i, hi, hcalls⟩ := hcaller
    rw [mem_calleesOf] at hcalls
    obtain ⟨root, hroot, hreach⟩ := ih i ⟨hi, .single hcalls⟩ hi
    exact ⟨root, hroot, hreach.tail hcalls⟩

end CallGraph

open CallGraph (build)

/-- The paths from the roots of a built call graph lead to the routines within reach of a root and
to no others. In a graph without cycles these are all routines, so that there is a root if there
is a routine. -/
theorem allPaths_cover {c : Catalogue n} {table : List (Fin n)} {g : CallGraph n}
    (config : Config) (hkeyed : c.Keyed table) (hbuild : (build c table).result = .ok g) :
    ∃ paths, allPaths (build c table).catalogue config g.roots = .ok paths ∧
      (∀ i, (∃ p ∈ paths, i ∈ p.chain) ↔
        ∃ root ∈ g.roots, Relation.ReflTransGen (build c table).catalogue.Calls root i) ∧
      ((∀ i ∈ g.order.toList, ¬ Relation.TransGen (build c table).catalogue.Calls i i) →
        (∀ i ∈ g.order.toList, ∃ p ∈ paths, i ∈ p.chain) ∧
        (g.order.toList ≠ [] → g.roots ≠ [])) := by
  have hlinked := CallGraph.build_linked hkeyed hbuild
  have hroots : ∀ root ∈ g.roots, root ∈ g.order.toList :=
    fun root hroot => ((CallGraph.mem_roots_iff hkeyed hbuild).1 hroot).1
  obtain ⟨lists, hlists⟩ := hlinked.isClosed.exists_mapM_pathsFrom config hroots
  have hcover : ∀ i, (∃ p ∈ StackPath.sortByTotal (lists.flatMap (·.toList)), i ∈ p.chain) ↔
      ∃ root ∈ g.roots, Relation.ReflTransGen (build c table).catalogue.Calls root i := by
    intro i
    simp only [mem_allPaths_iff hlists]
    constructor
    · rintro ⟨p, ⟨root, hroot, paths, hpaths, hp⟩, hi⟩
      exact ⟨root, hroot,
        (hlinked.exists_path_iff_reachable (hroots root hroot) hpaths i).1 ⟨p, hp, hi⟩⟩
    · rintro ⟨root, hroot, hreach⟩
      obtain ⟨paths, hpaths⟩ := hlinked.isClosed.exists_pathsFrom config (hroots root hroot)
      obtain ⟨p, hp, hi⟩ :=
        (hlinked.exists_path_iff_reachable (hroots root hroot) hpaths i).2 hreach
      exact ⟨p, ⟨root, hroot, paths, hpaths, hp⟩, hi⟩
  refine ⟨_, allPaths_of_mapM hlists, hcover, fun hacyclic => ?_⟩
  have hreach := CallGraph.exists_root_of_acyclic hkeyed hbuild hacyclic
  refine ⟨fun i hi => (hcover i).2 (hreach i hi), fun hne => ?_⟩
  obtain ⟨i, hi⟩ := List.exists_mem_of_ne_nil _ hne
  obtain ⟨root, hroot, -⟩ := hreach i hi
  exact List.ne_nil_of_mem hroot

/-- Two routines that nothing calls, and one that is called along three ways. -/
def sharedHelper : Catalogue 5 := Catalogue.ofList
  [{ name := "main", start := 0x10, stackUsed := 4, callTargets := .ofList [0x20, 0x30] },
   { name := "left", start := 0x20, stackUsed := 1, callTargets := .ofList [0x50] },
   { name := "right", start := 0x30, stackUsed := 2, callTargets := .ofList [0x50] },
   { name := "timer", start := 0x40, stackUsed := 9, callTargets := .ofList [0x50] },
   { name := "helper", start := 0x50 }]

def sharedHelperGraph : CallGraph 5 :=
  { order := #[0, 1, 2, 3, 4], callerIndex := #v[[], [0], [0], [], [1, 2, 3]], roots := [0, 3] }

theorem allPaths_cover_sharedHelper :
    sharedHelper.Keyed [0, 1, 2, 3, 4] ∧
      (build sharedHelper [0, 1, 2, 3, 4]).result = .ok sharedHelperGraph ∧
      (∀ i ∈ sharedHelperGraph.order.toList, ¬ Relation.TransGen
        (build sharedHelper [0, 1, 2, 3, 4]).catalogue.Calls i i) ∧
      ∃ paths, allPaths (build sharedHelper [0, 1, 2, 3, 4]).catalogue {} [0, 3] = .ok paths ∧
        ∀ i : Fin 5, ∃ p ∈ paths, i ∈ p.chain := by
  have hkeyed : sharedHelper.Keyed [0, 1, 2, 3, 4] := by
    unfold Catalogue.Keyed
    decide
  have hbuild : (build sharedHelper [0, 1, 2, 3, 4]).result = .ok sharedHelperGraph := by cbv
  have hresolved : (build sharedHelper [0, 1, 2, 3, 4]).catalogue.resolved =
      #v[some [1, 2], some [4], some [4], some [4], some []] := by cbv
  have hdown : ∀ i j, (build sharedHelper [0, 1, 2, 3, 4]).catalogue.Calls i j → i < j := by
    intro i j hcalls
    rw [← mem_calleesOf, CallGraph.calleesOf, Catalogue.callees?, hresolved] at hcalls
    revert i j
    decide
  have hacyclic : ∀ i ∈ sharedHelperGraph.order.toList, ¬ Relation.TransGen
      (build sharedHelper [0, 1, 2, 3, 4]).catalogue.Calls i i := by
    intro i _ hcycle
    have hbelow : ∀ j, Relation.TransGen (build sharedHelper [0, 1, 2, 3, 4]).catalogue.Calls i j →
        i < j := by
      intro j hreach
      induction hreach with
      | single hcalls => exact hdown _ _ hcalls
      | tail _ hcalls ih => exact ih.trans (hdown _ _ hcalls)
    exact lt_irrefl i (hbelow i hcycle)
  obtain ⟨paths, hpaths, -, hall⟩ := allPaths_cover {} hkeyed hbuild
  refine ⟨hkeyed, hbuild, hacyclic, paths, hpaths, fun i => ?_⟩
  exact (hall hacyclic).1 i (by revert i; decide)

end StackDepth
