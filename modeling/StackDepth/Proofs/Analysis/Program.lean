import StackDepth.Analysis.Program
import StackDepth.Proofs.Analysis.Ownership
import StackDepth.Proofs.CallGraph.Resolution

/-!
# Programs of listings

The call graph of a program is built over the whole table of a full pass. No two routines of the
table start at one address, so the graph has them in strictly ascending order.
-/
namespace StackDepth

theorem Catalogue.keyed_ofList {routines : List Routine}
    (h : (routines.map Routine.start).Nodup) :
    (Catalogue.ofList routines).Keyed (List.finRange routines.length) := by
  have hstart : (List.finRange routines.length).map (Catalogue.ofList routines).start =
      routines.map Routine.start := by
    apply List.ext_getElem
    · simp
    · intro k hk hk'
      simp [Catalogue.start, Catalogue.routine, Catalogue.ofList]
  rw [Catalogue.Keyed, hstart]
  exact h

namespace Program

variable {config : Config} {lines : List String} {p : Program}

theorem ofListing_ok (h : ofListing config lines = .ok p) :
    (∀ i, p.catalogue.routine i ∈ (analyze config lines).routines) ∧
      (∀ i, i ∈ p.graph.order.toList) ∧
      p.graph.order.toList.Pairwise fun i j => p.catalogue.start i < p.catalogue.start j := by
  unfold ofListing at h
  simp only [bind, Except.bind] at h
  split at h
  · cases h
  · rename_i graph hgraph
    cases h
    obtain ⟨hroutines, horder, -⟩ := CallGraph.build_ok hgraph
    refine ⟨fun i => ?_, fun i => ?_, ?_⟩
    · simp only [Catalogue.routine, hroutines]
      simp [Catalogue.ofList]
    · rw [horder]
      exact CallGraph.mem_sortByStart.2 (List.mem_finRange i)
    · rw [horder, Catalogue.start_congr hroutines]
      exact CallGraph.pairwise_sortByStart (Catalogue.keyed_ofList (nodup_firstByStart _))

theorem labelled_of_ofListing (h : ofListing config lines = .ok p) (i : Fin p.size) :
    (p.catalogue.routine i).Labelled :=
  labelled_of_mem_analyze ((ofListing_ok h).1 i)

end Program
end StackDepth
