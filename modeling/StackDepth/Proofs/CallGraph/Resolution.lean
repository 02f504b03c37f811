import Mathlib
import StackDepth.CallGraph.Basic

/-!
# Built call graphs

Building a call graph gives every routine of the table its callees and touches no other routine.
What later arguments need of a catalogue and the routines of a graph over it is `Linked`: the
routines start at different addresses, their callees are known, stand in ascending order of their
addresses and are routines of the graph themselves. Every successful build leaves the catalogue
linked over the routines of the graph (`build_linked`).
-/
namespace StackDepth

variable {n : Nat}

namespace Catalogue

/-- The routines start at different addresses and call only one another, and their callees are in
ascending order. -/
structure Linked (c : Catalogue n) (table : List (Fin n)) : Prop where
  keyed : c.Keyed table
  closed : ∀ i ∈ table, ∃ callees, c.callees? i = some callees ∧
    callees.Pairwise (fun j k => c.start j < c.start k) ∧ ∀ j ∈ callees, j ∈ table

theorem start_congr {c d : Catalogue n} (h : d.routines = c.routines) : d.start = c.start := by
  funext i
  rw [start, start, routine, routine, h]

theorem Keyed.start_inj {c : Catalogue n} {table : List (Fin n)} (h : c.Keyed table)
    {i j : Fin n} (hi : i ∈ table) (hj : j ∈ table) (hstart : c.start i = c.start j) : i = j :=
  List.inj_on_of_nodup_map h hi hj hstart

theorem resolve_ok {c d : Catalogue n} {i : Fin n} {callees : List (Fin n)}
    (h : c.resolve i callees = .ok d) :
    c.callees? i = none ∧ d = { c with resolved := c.resolved.set i (some callees) i.isLt } := by
  unfold resolve at h
  split at h
  · cases h
  · rename_i hnone
    exact ⟨hnone, (Except.ok.inj h).symm⟩

theorem callees?_set (c : Catalogue n) (i j : Fin n) (callees : List (Fin n)) :
    callees? { c with resolved := c.resolved.set i (some callees) i.isLt } j =
      if j = i then some callees else c.callees? j := by
  simp only [callees?, Fin.getElem_fin, Vector.getElem_set, Fin.ext_iff, eq_comm]

theorem byStart_some {c : Catalogue n} {among : List (Fin n)} {address : Int} {i : Fin n}
    (h : c.byStart among address = some i) : i ∈ among ∧ c.start i = address :=
  ⟨List.mem_of_find?_eq_some h, by simpa using List.find?_some h⟩

theorem byStart_congr {c d : Catalogue n} (h : d.routines = c.routines) :
    d.byStart = c.byStart := by
  funext among address
  rw [byStart, byStart, start_congr h]

end Catalogue

namespace CallGraph

open Catalogue

theorem targetsIn_congr {c d : Catalogue n} (h : d.routines = c.routines)
    (table : List (Fin n)) (i : Fin n) : targetsIn d table i = targetsIn c table i := by
  rw [targetsIn, targetsIn, byStart_congr h, routine, routine, h]

theorem mem_of_mem_targetsIn {c : Catalogue n} {table : List (Fin n)} {i j : Fin n}
    (h : j ∈ targetsIn c table i) : j ∈ table := by
  obtain ⟨address, -, hj⟩ := List.mem_filterMap.1 h
  exact (byStart_some hj).1

theorem pairwise_targetsIn (c : Catalogue n) (table : List (Fin n)) (i : Fin n) :
    (targetsIn c table i).Pairwise fun j k => c.start j < c.start k := by
  unfold targetsIn
  rw [List.pairwise_filterMap]
  refine (c.routine i).callTargets.ascending.imp ?_
  intro a b hab j hj k hk
  rw [(byStart_some hj).2, (byStart_some hk).2]
  exact hab

/-- Routines that are given their callees one after another all get them, and no other routine
does; the routines themselves stay as they are. -/
theorem resolveAll_ok {table : List (Fin n)} {c : Catalogue n} {rest : List (Fin n)}
    (h : (resolveAll table c rest).result = .ok ()) :
    (resolveAll table c rest).catalogue.routines = c.routines ∧
      ∀ i, (resolveAll table c rest).catalogue.callees? i =
        if i ∈ rest then some (targetsIn c table i) else c.callees? i := by
  induction rest generalizing c with
  | nil => exact ⟨rfl, by simp [resolveAll]⟩
  | cons i rest ih =>
    rw [resolveAll] at h ⊢
    cases hresolve : c.resolve i (targetsIn c table i) with
    | error e => simp only [hresolve] at h; cases h
    | ok d =>
      simp only [hresolve] at h ⊢
      obtain ⟨-, rfl⟩ := resolve_ok hresolve
      obtain ⟨hroutines, hcallees⟩ := ih h
      refine ⟨hroutines, fun j => ?_⟩
      rw [hcallees j, callees?_set]
      by_cases hj : j ∈ rest
      · simp only [List.mem_cons, hj, or_true, if_true]
        exact congrArg some (targetsIn_congr rfl table j)
      · by_cases hji : j = i
        · subst hji
          simp [hj]
        · simp [hj, hji]

theorem mem_sortByStart {c : Catalogue n} {table : List (Fin n)} {i : Fin n} :
    i ∈ sortByStart c table ↔ i ∈ table :=
  List.mem_mergeSort

theorem keyed_sortByStart {c : Catalogue n} {table : List (Fin n)} (h : c.Keyed table) :
    c.Keyed (sortByStart c table) :=
  ((List.mergeSort_perm table _).map c.start).nodup_iff.2 h

theorem pairwise_sortByStart {c : Catalogue n} {table : List (Fin n)} (h : c.Keyed table) :
    (sortByStart c table).Pairwise fun i j => c.start i < c.start j := by
  have hle : (sortByStart c table).Pairwise fun i j => c.start i ≤ c.start j := by
    refine (List.pairwise_mergeSort ?_ ?_ table).imp (fun hij => by simpa using hij)
    · intro i j k hij hjk
      simp only [decide_eq_true_eq] at *
      exact Int.le_trans hij hjk
    · intro i j
      simp only [Bool.or_eq_true, decide_eq_true_eq]
      exact Int.le_total _ _
  have hne : (sortByStart c table).Pairwise fun i j => c.start i ≠ c.start j :=
    List.pairwise_map.1 (keyed_sortByStart h)
  exact hle.imp₂ (fun i j hij hne => by omega) hne

theorem build_ok {c : Catalogue n} {table : List (Fin n)} {g : CallGraph n}
    (h : (build c table).result = .ok g) :
    (build c table).catalogue.routines = c.routines ∧
      g.order.toList = sortByStart c table ∧
      ∀ i ∈ table, (build c table).catalogue.callees? i =
        some (targetsIn c (sortByStart c table) i) := by
  simp only [build] at h ⊢
  cases hresult : (resolveAll (sortByStart c table) c (sortByStart c table)).result with
  | error e => rw [hresult] at h; cases h
  | ok u =>
    rw [hresult] at h
    cases h
    obtain ⟨hroutines, hcallees⟩ := resolveAll_ok hresult
    refine ⟨hroutines, by simp [index], fun i hi => ?_⟩
    rw [hcallees i, if_pos (mem_sortByStart.2 hi)]

theorem build_linked {c : Catalogue n} {table : List (Fin n)} {g : CallGraph n}
    (hkeyed : c.Keyed table) (h : (build c table).result = .ok g) :
    (build c table).catalogue.Linked g.order.toList := by
  obtain ⟨hroutines, horder, hcallees⟩ := build_ok h
  rw [horder]
  constructor
  · rw [Keyed, start_congr hroutines]
    exact keyed_sortByStart hkeyed
  · intro i hi
    refine ⟨_, hcallees i (mem_sortByStart.1 hi), ?_, fun j hj => mem_of_mem_targetsIn hj⟩
    rw [start_congr hroutines]
    exact pairwise_targetsIn c _ i

end CallGraph
end StackDepth
