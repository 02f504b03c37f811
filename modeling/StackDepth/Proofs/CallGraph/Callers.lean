import Mathlib
import StackDepth.Proofs.CallGraph.Targets

/-!
# Callers and callees

The callers of the routines are collected in one go through the graph: each routine in turn is
noted as a caller of each of its callees. Since no routine is its caller's callee twice, what is
collected for a routine are the routines of the graph that have it among their callees, in the
order of the graph and each once (`callers_index`). Roots and leaves are parts of that order too.
Every edge is noted at one end and counted at the other, so that the callers of all routines are
together as many as their callees.
-/
namespace StackDepth

variable {n : Nat}

namespace Catalogue

/-- The routines stand in ascending order of their addresses. -/
def Ascending (c : Catalogue n) (routines : List (Fin n)) : Prop :=
  routines.Pairwise fun i j => c.start i < c.start j

theorem Ascending.filter {c : Catalogue n} {routines : List (Fin n)} (h : c.Ascending routines)
    (p : Fin n → Bool) : c.Ascending (routines.filter p) :=
  List.Pairwise.filter p h

theorem Ascending.nodup {c : Catalogue n} {routines : List (Fin n)} (h : c.Ascending routines) :
    routines.Nodup := by
  refine List.Pairwise.imp ?_ h
  rintro i _ hlt rfl
  exact Int.lt_irrefl _ hlt

end Catalogue

namespace Catalogue.Linked

open CallGraph (calleesOf)

variable {c : Catalogue n} {order : List (Fin n)} {i : Fin n}

theorem nodup_calleesOf (h : c.Linked order) (hi : i ∈ order) : (calleesOf c i).Nodup := by
  obtain ⟨callees, hcallees, hascending, -⟩ := h.closed i hi
  rw [calleesOf, hcallees]
  exact Ascending.nodup hascending

theorem mem_order_of_mem_calleesOf (h : c.Linked order) (hi : i ∈ order) {j : Fin n}
    (hj : j ∈ calleesOf c i) : j ∈ order := by
  obtain ⟨callees, hcallees, -, hclosed⟩ := h.closed i hi
  rw [calleesOf, hcallees] at hj
  exact hclosed j hj

end Catalogue.Linked

namespace CallGraph

open Catalogue

/-! ### Collecting the callers -/

theorem get_noteCaller (caller callee j : Fin n) (index : Vector (List (Fin n)) n) :
    (noteCaller caller index callee).get j =
      index.get j ++ if j = callee then [caller] else [] := by
  have hget : ∀ v : Vector (List (Fin n)) n, v.get j = v[j] := fun _ => rfl
  rw [noteCaller, hget, hget, Fin.getElem_fin, Vector.getElem_set]
  by_cases hj : j = callee
  · subst hj
    simp [hget]
  · have hne : ¬ callee.val = j.val := fun h => hj (Fin.ext h.symm)
    simp [hj, hne]

theorem get_foldl_noteCaller (caller j : Fin n) {callees : List (Fin n)} (h : callees.Nodup)
    (index : Vector (List (Fin n)) n) :
    (callees.foldl (noteCaller caller) index).get j =
      index.get j ++ if j ∈ callees then [caller] else [] := by
  induction callees generalizing index with
  | nil => simp
  | cons callee rest ih =>
    obtain ⟨hcallee, hrest⟩ := List.nodup_cons.1 h
    rw [List.foldl_cons, ih hrest, get_noteCaller]
    by_cases hj : j = callee
    · subst hj
      simp [hcallee]
    · simp [hj]

/-- Each routine is noted once with each of its callees, in the order in which they are gone
through. -/
theorem get_foldl_noteCallees (c : Catalogue n) (j : Fin n) {callers : List (Fin n)}
    (h : ∀ i ∈ callers, (calleesOf c i).Nodup) (index : Vector (List (Fin n)) n) :
    (callers.foldl (noteCallees c) index).get j =
      index.get j ++ callers.filter fun i => j ∈ calleesOf c i := by
  induction callers generalizing index with
  | nil => simp
  | cons i rest ih =>
    have hone : (noteCallees c index i).get j =
        index.get j ++ if j ∈ calleesOf c i then [i] else [] :=
      get_foldl_noteCaller i j (h i List.mem_cons_self) index
    rw [List.foldl_cons, ih fun k hk => h k (List.mem_cons_of_mem _ hk), hone]
    by_cases hj : j ∈ calleesOf c i
    · rw [if_pos hj, List.filter_cons_of_pos (by simpa using hj), List.append_assoc]
      rfl
    · rw [if_neg hj, List.filter_cons_of_neg (by simpa using hj), List.append_nil]

variable {c : Catalogue n} {order : List (Fin n)}

theorem callers_index (h : c.Linked order) (j : Fin n) :
    (index c order).callers j = order.filter fun i => j ∈ calleesOf c i := by
  have hcollected := get_foldl_noteCallees c j (fun i hi => h.nodup_calleesOf hi)
    (Vector.replicate n [])
  have hempty : (Vector.replicate n ([] : List (Fin n))).get j = [] := Vector.getElem_replicate _
  rw [hempty, List.nil_append] at hcollected
  exact hcollected

theorem roots_index (h : c.Linked order) :
    (index c order).roots = order.filter fun j => order.all fun i => j ∉ calleesOf c i := by
  have hroots : (index c order).roots =
      order.filter fun j => ((index c order).callers j).isEmpty := rfl
  rw [hroots]
  refine List.filter_congr fun j _ => ?_
  rw [callers_index h, Bool.eq_iff_iff]
  simp

/-! ### Counting edges from both ends -/

/-- A routine has as many callees as there are routines of the graph among its callees. -/
theorem length_filter_mem_calleesOf (h : c.Linked order) {i : Fin n} (hi : i ∈ order) :
    (order.filter fun j => j ∈ calleesOf c i).length = (calleesOf c i).length := by
  have hdistinct : order.Nodup := List.Nodup.of_map _ h.keyed
  apply List.Perm.length_eq
  rw [List.perm_ext_iff_of_nodup (hdistinct.filter _) (h.nodup_calleesOf hi)]
  intro j
  rw [List.mem_filter, decide_eq_true_eq]
  exact ⟨fun hj => hj.2, fun hj => ⟨h.mem_order_of_mem_calleesOf hi hj, hj⟩⟩

theorem sum_map_ite_one (p : Fin n → Bool) (l : List (Fin n)) :
    (l.map fun j => if p j then 1 else 0).sum = l.countP p := by
  induction l with
  | nil => rfl
  | cons j rest ih => rw [List.map_cons, List.sum_cons, ih, List.countP_cons, Nat.add_comm]

/-- Edges noted at their callees are those counted at their callers. -/
theorem sum_length_filter_callers (h : c.Linked order) {callers : List (Fin n)}
    (hcallers : ∀ i ∈ callers, i ∈ order) :
    (order.map fun j => (callers.filter fun i => j ∈ calleesOf c i).length).sum =
      (callers.flatMap (calleesOf c)).length := by
  induction callers with
  | nil => simp
  | cons i rest ih =>
    have hrest := ih fun k hk => hcallers k (List.mem_cons_of_mem _ hk)
    have hown : (order.map fun j => if decide (j ∈ calleesOf c i) then 1 else 0).sum =
        (calleesOf c i).length := by
      rw [sum_map_ite_one, List.countP_eq_length_filter,
        length_filter_mem_calleesOf h (hcallers i List.mem_cons_self)]
    simp only [← List.countP_eq_length_filter] at hrest ⊢
    simp only [List.countP_cons]
    rw [List.sum_map_add, hrest, hown, List.flatMap_cons, List.length_append, Nat.add_comm]

/-! ### The built graph -/

theorem build_eq_index {table : List (Fin n)} {g : CallGraph n}
    (h : (build c table).result = .ok g) :
    g = index (build c table).catalogue g.order.toList := by
  have horder : g.order.toList = sortByStart c table := (build_ok h).2.1
  simp only [build] at h
  cases hresult : (resolveAll (sortByStart c table) c (sortByStart c table)).result with
  | error e => rw [hresult] at h; cases h
  | ok u =>
    rw [hresult] at h
    cases h
    rw [horder]
    rfl

section Built

variable {table : List (Fin n)} {g : CallGraph n}

theorem ascending_order (hkeyed : c.Keyed table) (h : (build c table).result = .ok g) :
    (build c table).catalogue.Ascending g.order.toList := by
  obtain ⟨hroutines, horder, -⟩ := build_ok h
  rw [Catalogue.Ascending, start_congr hroutines, horder]
  exact pairwise_sortByStart hkeyed

theorem callers_build (hkeyed : c.Keyed table) (h : (build c table).result = .ok g) (j : Fin n) :
    g.callers j = g.order.toList.filter fun i => j ∈ calleesOf (build c table).catalogue i := by
  have hcallers := callers_index (build_linked hkeyed h) j
  rwa [← build_eq_index h] at hcallers

theorem mem_callers_iff (hkeyed : c.Keyed table) (h : (build c table).result = .ok g)
    {i j : Fin n} :
    i ∈ g.callers j ↔ i ∈ g.order.toList ∧ j ∈ calleesOf (build c table).catalogue i := by
  rw [callers_build hkeyed h, List.mem_filter, decide_eq_true_eq]

theorem mem_roots_iff (hkeyed : c.Keyed table) (h : (build c table).result = .ok g) {i : Fin n} :
    i ∈ g.roots ↔ i ∈ g.order.toList ∧
      ∀ j ∈ g.order.toList, i ∉ calleesOf (build c table).catalogue j := by
  have hroots := roots_index (build_linked hkeyed h)
  rw [← build_eq_index h] at hroots
  rw [hroots, List.mem_filter, List.all_eq_true]
  simp only [decide_eq_true_eq]

theorem ascending_roots (hkeyed : c.Keyed table) (h : (build c table).result = .ok g) :
    (build c table).catalogue.Ascending g.roots := by
  have hroots := roots_index (build_linked hkeyed h)
  rw [← build_eq_index h] at hroots
  rw [hroots]
  exact (ascending_order hkeyed h).filter _

/-- The callers of a routine of the graph are found by its address. -/
theorem callersAt_start (hkeyed : c.Keyed table) (h : (build c table).result = .ok g) {j : Fin n}
    (hj : j ∈ g.order.toList) :
    g.callersAt (build c table).catalogue ((build c table).catalogue.start j) = g.callers j := by
  have hat : g.at? (build c table).catalogue ((build c table).catalogue.start j) = some j :=
    (build_linked hkeyed h).keyed.byStart_eq_some_iff.2 ⟨hj, rfl⟩
  rw [callersAt, hat]
  rfl

theorem sum_length_callers (hkeyed : c.Keyed table) (h : (build c table).result = .ok g) :
    (g.order.toList.map fun j => (g.callers j).length).sum =
      (g.order.toList.flatMap (calleesOf (build c table).catalogue)).length := by
  simp only [callers_build hkeyed h]
  exact sum_length_filter_callers (build_linked hkeyed h) fun _ hi => hi

/-- In a built graph the callers of a routine are the routines that have it among their callees,
each once and in ascending order, and the roots are the routines that are no callees at all. Roots
and leaves are in ascending order, and all routines together have as many callers as there are
edges. -/
theorem callers_dual_callees (hkeyed : c.Keyed table) (hbuild : (build c table).result = .ok g) :
    let built := (build c table).catalogue
    let callers := fun j => g.callersAt built (built.start j)
    (∀ i ∈ g.order.toList, built.callees i = .ok (calleesOf built i)) ∧
    (∀ j ∈ g.order.toList, built.Ascending (callers j) ∧
      ∀ i ∈ g.order.toList, (i ∈ callers j ↔ j ∈ calleesOf built i) ∧
        (j ∈ calleesOf built i → (callers j).count i = 1)) ∧
    (∀ i ∈ g.order.toList, i ∈ g.roots ↔ ∀ j ∈ g.order.toList, i ∉ calleesOf built j) ∧
    built.Ascending g.roots ∧ built.Ascending (g.leaves built) ∧
    ∀ log : Log, (g.order.toList.map fun j => (callers j).length).sum =
      (g.statistics built log).edges := by
  intro built callers
  have hlinked : built.Linked g.order.toList := build_linked hkeyed hbuild
  have hascending : built.Ascending g.order.toList := ascending_order hkeyed hbuild
  have hcallers : ∀ j ∈ g.order.toList, callers j = g.callers j :=
    fun j hj => callersAt_start hkeyed hbuild hj
  refine ⟨?_, ?_, ?_, ascending_roots hkeyed hbuild, hascending.filter _, ?_⟩
  · intro i hi
    obtain ⟨callees, hcallees, -⟩ := hlinked.closed i hi
    simp only [Catalogue.callees, calleesOf, hcallees, Option.getD_some]
  · intro j hj
    rw [hcallers j hj]
    have hsorted : built.Ascending (g.callers j) := by
      rw [callers_build hkeyed hbuild]
      exact hascending.filter _
    refine ⟨hsorted, fun i hi => ?_⟩
    have hmem : i ∈ g.callers j ↔ j ∈ calleesOf built i := by
      rw [mem_callers_iff hkeyed hbuild]
      exact and_iff_right hi
    exact ⟨hmem, fun hj => List.count_eq_one_of_mem hsorted.nodup (hmem.2 hj)⟩
  · intro i hi
    rw [mem_roots_iff hkeyed hbuild]
    exact and_iff_right hi
  · intro log
    rw [List.map_congr_left fun j hj => congrArg List.length (hcallers j hj),
      sum_length_callers hkeyed hbuild]
    rfl

end Built

/-- A routine that calls itself and is called by two others, one of which nothing calls. -/
def sharedCallee : Catalogue 4 := Catalogue.ofList
  [{ name := "loop", start := 0x30, callTargets := .ofList [0x30] },
   { name := "main", start := 0x10, callTargets := .ofList [0x20, 0x30] },
   { name := "work", start := 0x20, callTargets := .ofList [0x30, 0x40] },
   { name := "stop", start := 0x40 }]

def sharedCalleeGraph : CallGraph 4 :=
  { order := #[1, 2, 0, 3], callerIndex := #v[[1, 2, 0], [], [1], [2]], roots := [1] }

theorem callers_dual_callees_sharedCallee :
    sharedCallee.Keyed [0, 1, 2, 3] ∧
      (build sharedCallee [0, 1, 2, 3]).result = .ok sharedCalleeGraph ∧
      sharedCalleeGraph.callersAt (build sharedCallee [0, 1, 2, 3]).catalogue 0x30 = [1, 2, 0] ∧
      0 ∈ calleesOf (build sharedCallee [0, 1, 2, 3]).catalogue 0 ∧
      0 ∉ sharedCalleeGraph.roots ∧
      (sharedCalleeGraph.statistics (build sharedCallee [0, 1, 2, 3]).catalogue []).edges = 5 := by
  have hkeyed : sharedCallee.Keyed [0, 1, 2, 3] := by
    unfold Catalogue.Keyed
    decide
  have hbuild : (build sharedCallee [0, 1, 2, 3]).result = .ok sharedCalleeGraph := by cbv
  obtain ⟨-, hcallers, hroots, -, -, hsum⟩ := callers_dual_callees hkeyed hbuild
  have hloop : (0 : Fin 4) ∈ sharedCalleeGraph.order.toList := by decide
  have hthree : sharedCalleeGraph.callersAt (build sharedCallee [0, 1, 2, 3]).catalogue 0x30 =
      [1, 2, 0] := by cbv
  have hstart : (build sharedCallee [0, 1, 2, 3]).catalogue.start 0 = 0x30 := by cbv
  have hself : 0 ∈ calleesOf (build sharedCallee [0, 1, 2, 3]).catalogue 0 := by
    refine ((hcallers 0 hloop).2 0 hloop).1.1 ?_
    simp only [hstart, hthree]
    decide
  refine ⟨hkeyed, hbuild, hthree, hself, ?_, ?_⟩
  · intro hroot
    exact (hroots 0 hloop).1 hroot 0 hloop hself
  · rw [← hsum]
    cbv

end CallGraph
end StackDepth
