import Mathlib
import StackDepth.Dump.Trace
import StackDepth.Proofs.Analysis.Program
import StackDepth.Proofs.StackPath.Expansion

/-!
# What a program takes from its routines

The call graph, the stack paths and the traces of a program read a routine through its figures:
name, start address, bytes of stack and call targets. Where the label of a routine stands in the
listing and which lines it owns count only for a bounded pass. So two catalogues whose routines
have the same figures lead to one and the same call graph and to the same paths, and to the same
traces as far as bounded passes over their routines come to the same figures.
-/
namespace StackDepth

open Text

/-- A routine without its place in the listing. -/
structure Figures where
  name : String
  start : Int
  stackUsed : Int
  reserved : Int
  callTargets : AddressSet
deriving DecidableEq

def Routine.figures (r : Routine) : Figures :=
  ⟨r.name, r.start, r.stackUsed, r.reserved, r.callTargets⟩

theorem Routine.figures_eq_iff {r s : Routine} :
    r.figures = s.figures ↔ r.name = s.name ∧ r.start = s.start ∧ r.stackUsed = s.stackUsed ∧
      r.reserved = s.reserved ∧ r.callTargets = s.callTargets := by
  simp [figures]

variable {n : Nat}

/-! ### Call graphs -/

namespace Catalogue

/-- The routines have the same figures, and as far as their callees are known, these are the
same. -/
structure Alike (c d : Catalogue n) : Prop where
  figures : ∀ i, (c.routine i).figures = (d.routine i).figures
  resolved : c.resolved = d.resolved

variable {c d : Catalogue n}

theorem Alike.name (h : c.Alike d) (i : Fin n) : (c.routine i).name = (d.routine i).name :=
  congrArg Figures.name (h.figures i)

theorem Alike.start (h : c.Alike d) : c.start = d.start :=
  funext fun i => congrArg Figures.start (h.figures i)

theorem Alike.callTargets (h : c.Alike d) (i : Fin n) :
    (c.routine i).callTargets = (d.routine i).callTargets :=
  congrArg Figures.callTargets (h.figures i)

theorem Alike.contribution (h : c.Alike d) (config : Config) (i : Fin n) :
    (c.routine i).contribution config = (d.routine i).contribution config :=
  congrArg (fun f : Figures => f.stackUsed + config.returnAddressBytes) (h.figures i)

theorem Alike.callees? (h : c.Alike d) : c.callees? = d.callees? := by
  funext i
  rw [Catalogue.callees?, Catalogue.callees?, h.resolved]

theorem Alike.byStart (h : c.Alike d) : c.byStart = d.byStart := by
  funext among address
  rw [Catalogue.byStart, Catalogue.byStart, h.start]

theorem Alike.resolve (h : c.Alike d) {i : Fin n} (callees : List (Fin n))
    (hnone : c.callees? i = none) :
    ∃ c' d', c.resolve i callees = .ok c' ∧ d.resolve i callees = .ok d' ∧ c'.Alike d' := by
  have hnone' : d.callees? i = none := by rw [← h.callees?, hnone]
  refine ⟨{ c with resolved := c.resolved.set i (some callees) i.isLt },
    { d with resolved := d.resolved.set i (some callees) i.isLt }, ?_, ?_, h.figures, ?_⟩
  · simp only [Catalogue.resolve, hnone]
  · simp only [Catalogue.resolve, hnone']
  · rw [h.resolved]

/-- A catalogue of the routines of a vector, none of which has callees yet. -/
def ofVector (routines : Vector Routine n) : Catalogue n := ⟨routines, Vector.replicate n none⟩

theorem callees?_ofVector (routines : Vector Routine n) (i : Fin n) :
    (ofVector routines).callees? i = none := by
  simp [Catalogue.callees?, ofVector]

theorem alike_ofVector {routines routines' : Vector Routine n}
    (h : routines.map Routine.figures = routines'.map Routine.figures) :
    (ofVector routines).Alike (ofVector routines') := by
  refine ⟨fun i => ?_, rfl⟩
  have := congrArg (fun v : Vector Figures n => v[i]) h
  simpa [ofVector, Catalogue.routine] using this

end Catalogue

namespace CallGraph

open Catalogue

variable {c d : Catalogue n}

theorem targetsIn_alike (h : c.Alike d) (table : List (Fin n)) (i : Fin n) :
    targetsIn c table i = targetsIn d table i := by
  rw [targetsIn, targetsIn, h.byStart, h.callTargets]

theorem missingTargets_alike (h : c.Alike d) (table : List (Fin n)) (i : Fin n) :
    missingTargets c table i = missingTargets d table i := by
  rw [missingTargets, missingTargets, h.byStart, h.callTargets, h.name]

/-- Routines without callees are given theirs alike, and this never fails. -/
theorem resolveAll_alike (h : c.Alike d) (table : List (Fin n)) {rest : List (Fin n)}
    (hnodup : rest.Nodup) (hnone : ∀ i ∈ rest, c.callees? i = none) :
    (resolveAll table c rest).result = .ok () ∧ (resolveAll table d rest).result = .ok () ∧
      (resolveAll table c rest).diagnostics = (resolveAll table d rest).diagnostics ∧
      (resolveAll table c rest).catalogue.Alike (resolveAll table d rest).catalogue := by
  induction rest generalizing c d with
  | nil => exact ⟨rfl, rfl, rfl, h⟩
  | cons i rest ih =>
    obtain ⟨hi, hnodup⟩ := List.nodup_cons.1 hnodup
    obtain ⟨c', d', hc, hd, halike⟩ :=
      h.resolve (targetsIn c table i) (hnone i List.mem_cons_self)
    have hnone' : ∀ j ∈ rest, c'.callees? j = none := by
      intro j hj
      obtain ⟨-, rfl⟩ := resolve_ok hc
      have hji : j ≠ i := fun heq => hi (heq ▸ hj)
      rw [callees?_set, if_neg hji]
      exact hnone j (List.mem_cons_of_mem _ hj)
    obtain ⟨hresult, hresult', hdiagnostics, hcatalogue⟩ := ih halike hnodup hnone'
    rw [targetsIn_alike h] at hd
    simp only [resolveAll, hc, hd, missingTargets_alike h]
    exact ⟨hresult, hresult', by rw [hdiagnostics], hcatalogue⟩

theorem noteCallees_alike (h : c.Alike d) : noteCallees c = noteCallees d := by
  funext index caller
  rw [noteCallees, noteCallees, h.callees?]

theorem index_alike (h : c.Alike d) (order : List (Fin n)) : index c order = index d order := by
  rw [index, index, noteCallees_alike h]

/-- Alike catalogues without callees give one call graph with the same warnings. -/
theorem build_alike (h : c.Alike d) {table : List (Fin n)} (hnodup : table.Nodup)
    (hnone : ∀ i ∈ table, c.callees? i = none) :
    ∃ g, (build c table).result = .ok g ∧ (build d table).result = .ok g ∧
      (build c table).diagnostics = (build d table).diagnostics ∧
      (build c table).catalogue.Alike (build d table).catalogue := by
  have horder : sortByStart d table = sortByStart c table := by
    rw [sortByStart, sortByStart, h.start]
  have hnodup' : (sortByStart c table).Nodup := (List.mergeSort_perm table _).nodup_iff.2 hnodup
  obtain ⟨hresult, hresult', hdiagnostics, hcatalogue⟩ :=
    resolveAll_alike h (sortByStart c table) hnodup' fun i hi => hnone i (mem_sortByStart.1 hi)
  refine ⟨index (resolveAll (sortByStart c table) c (sortByStart c table)).catalogue
    (sortByStart c table), ?_, ?_, ?_, ?_⟩
  · simp only [build, hresult]
    rfl
  · simp only [build, horder, hresult', index_alike hcatalogue]
    rfl
  · simp only [build, horder, hdiagnostics]
  · simp only [build, horder]
    exact hcatalogue

theorem containing_alike (h : c.Alike d) (g : CallGraph n) : g.containing c = g.containing d := by
  funext address
  rw [containing, containing, h.start]

end CallGraph

/-! ### Paths -/

section Paths
variable {c d : Catalogue n}

theorem nodeOf_alike (h : c.Alike d) (config : Config) : nodeOf c config = nodeOf d config := by
  funext running i
  rw [nodeOf, nodeOf, h.contribution]

theorem expand_alike (h : c.Alike d) (config : Config) (keep : Keep) (visiting : AddressSet)
    (running : Int) (i : Fin n) :
    expand c config keep visiting running i = expand d config keep visiting running i := by
  induction visiting, i using c.visit_induction generalizing running with
  | visited visiting i hvisited =>
    have hvisited' : d.start i ∈ visiting := by rwa [← h.start]
    rw [expand_visited hvisited, expand_visited hvisited', nodeOf_alike h, h.contribution]
  | unresolved visiting i hfresh hcallees =>
    have hfresh' : d.start i ∉ visiting := by rwa [← h.start]
    rw [expand_unresolved hfresh hcallees, expand_unresolved hfresh' (h.callees? ▸ hcallees),
      h.name]
  | resolved visiting i callees hfresh hcallees ih =>
    have hfresh' : d.start i ∉ visiting := by rwa [← h.start]
    have hexplore : ∀ running, expand c config keep (visiting.insert (c.start i)) running =
        expand d config keep (visiting.insert (d.start i)) running := by
      intro running
      funext j
      rw [ih j, h.start]
    rw [expand_resolved hfresh hcallees, expand_resolved hfresh' (h.callees? ▸ hcallees),
      hexplore, nodeOf_alike h]

theorem pathsFrom_alike (h : c.Alike d) (config : Config) (root : Fin n) :
    pathsFrom c config root = pathsFrom d config root := by
  rw [pathsFrom_eq_expand, pathsFrom_eq_expand, expand_alike h]

theorem worstPath_alike (h : c.Alike d) (config : Config) (root : Fin n) :
    worstPath c config root = worstPath d config root := by
  rw [worstPath_eq_expand, worstPath_eq_expand, expand_alike h]

end Paths

/-! ### Traces -/

namespace Dump

variable {c d : Catalogue n} {config : Config}

theorem frameAt_alike (h : c.Alike d)
    (hpart : ∀ i stop, (analyzePart config (c.routine i) stop).routine.figures =
      (analyzePart config (d.routine i) stop).routine.figures)
    (g : CallGraph n) (address : Int) :
    (frameAt c g config address).result = (frameAt d g config address).result := by
  simp only [frameAt, CallGraph.containing_alike h]
  cases g.containing d address with
  | none => rfl
  | some i =>
    have hused : (analyzePart config (c.routine i) address).routine.stackUsed =
        (analyzePart config (d.routine i) address).routine.stackUsed :=
      congrArg Figures.stackUsed (hpart i address)
    have hname : (analyzePart config (c.routine i) address).routine.name =
        (analyzePart config (d.routine i) address).routine.name :=
      congrArg Figures.name (hpart i address)
    simp only [hused, hname]
    split
    · rfl
    · split <;> rfl

theorem framesFrom_alike (h : c.Alike d)
    (hpart : ∀ i stop, (analyzePart config (c.routine i) stop).routine.figures =
      (analyzePart config (d.routine i) stop).routine.figures)
    (g : CallGraph n) (dump : Array UInt8) (steps : Nat) (position : Int) :
    (framesFrom c g config dump steps position).result =
      (framesFrom d g config dump steps position).result := by
  induction steps generalizing position with
  | zero => rfl
  | succ steps ih =>
    rw [framesFrom, framesFrom]
    split
    · rfl
    · cases returnAddressAt? dump position with
      | none => rfl
      | some address =>
        simp only [frameAt_alike h hpart g address]
        split
        · rfl
        · simp only [ih]

theorem trace_alike (h : c.Alike d)
    (hpart : ∀ i stop, (analyzePart config (c.routine i) stop).routine.figures =
      (analyzePart config (d.routine i) stop).routine.figures)
    (g : CallGraph n) (dump : List UInt8) :
    (trace c g config dump).result = (trace d g config dump).result := by
  unfold trace
  split
  · simp only [framesFrom_alike h hpart]
  · rfl

end Dump

/-! ### Programs -/

theorem Program.ofListing_eq {config : Config} {lines : List String}
    (h : (analyze config lines).routines.length = n) :
    Program.ofListing config lines =
      let attempt := CallGraph.build
        (Catalogue.ofVector ⟨(analyze config lines).routines.toArray, by simpa using h⟩)
        (List.finRange n)
      attempt.result.map fun graph =>
        { analysis := analyze config lines, size := n, catalogue := attempt.catalogue, graph,
          missing := attempt.diagnostics } := by
  subst h
  rfl

end StackDepth
