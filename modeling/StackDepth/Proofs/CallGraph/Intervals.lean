import Mathlib
import StackDepth.Proofs.CallGraph.Callers
import StackDepth.Proofs.CallGraph.Lookup

/-!
# The intervals of a call graph

The starts of the routines divide the addresses into intervals. An interval begins behind the start
of a routine and runs up to the next start, which still belongs to it; the last interval has no end.
All addresses of an interval lead to the routine at its beginning, and the addresses up to the first
start lead nowhere. So the search by halves amounts to taking, among the routines that start below
the address, the one that starts last (`containing_eq_some_iff`).
-/
namespace StackDepth

variable {n : Nat}

namespace Catalogue

/-- Of the routines that start below the address, none starts behind this one. -/
structure Nearest (c : Catalogue n) (routines : List (Fin n)) (address : Int) (i : Fin n) :
    Prop where
  mem : i ∈ routines
  below : c.start i < address
  greatest : ∀ j ∈ routines, c.start j < address → c.start j ≤ c.start i

/-- The routine `next` starts behind `i`, and none starts in between. -/
structure Successor (c : Catalogue n) (routines : List (Fin n)) (i next : Fin n) : Prop where
  behind : c.start i < c.start next
  first : ∀ j ∈ routines, c.start i < c.start j → c.start next ≤ c.start j

variable {c : Catalogue n} {routines : List (Fin n)} {address : Int} {i j : Fin n}

theorem exists_nearest (hj : j ∈ routines) (hbelow : c.start j < address) :
    ∃ i, c.Nearest routines address i := by
  obtain ⟨i, hi, hgreatest⟩ := Finset.exists_max_image
    (routines.toFinset.filter (c.start · < address)) c.start ⟨j, by simp [hj, hbelow]⟩
  simp only [Finset.mem_filter, List.mem_toFinset] at hi hgreatest
  exact ⟨i, hi.1, hi.2, fun k hk hlt => hgreatest k ⟨hk, hlt⟩⟩

theorem Nearest.start_le_of_le (h : c.Nearest routines address i) {later : Int}
    (hle : address ≤ later) (hj : c.Nearest routines later j) : c.start i ≤ c.start j :=
  hj.greatest i h.mem (Int.lt_of_lt_of_le h.below hle)

theorem Nearest.of_successor (hi : i ∈ routines) {next : Fin n}
    (h : c.Successor routines i next) (hbehind : c.start i < address)
    (hupto : address ≤ c.start next) : c.Nearest routines address i := by
  refine ⟨hi, hbehind, fun j hj hlt => ?_⟩
  by_contra hgt
  have := h.first j hj (by omega)
  omega

end Catalogue

namespace CallGraph

open Catalogue

variable {c : Catalogue n} {g : CallGraph n} {address : Int} {i : Fin n}

theorem containing_eq_none (h : ∀ j ∈ g.order.toList, address ≤ c.start j) :
    g.containing c address = none :=
  containing_eq_getLast? (List.nil_append _).symm (by simp) h

theorem containing_of_nearest (hascending : c.Ascending g.order.toList)
    (h : c.Nearest g.order.toList address i) : g.containing c address = some i := by
  refine containing_eq_some hascending h.mem h.below fun j hj hbehind => ?_
  by_contra hlt
  have := h.greatest j hj (by omega)
  omega

theorem containing_eq_some_iff (hascending : c.Ascending g.order.toList) :
    g.containing c address = some i ↔ c.Nearest g.order.toList address i := by
  refine ⟨fun hfound => ?_, containing_of_nearest hascending⟩
  by_cases h : ∀ j ∈ g.order.toList, address ≤ c.start j
  · rw [containing_eq_none h] at hfound
    cases hfound
  · push Not at h
    obtain ⟨j, hj, hbelow⟩ := h
    obtain ⟨k, hk⟩ := exists_nearest hj hbelow
    rw [containing_of_nearest hascending hk] at hfound
    cases hfound
    exact hk

theorem containing_eq_none_iff (hascending : c.Ascending g.order.toList) :
    g.containing c address = none ↔ ∀ j ∈ g.order.toList, address ≤ c.start j := by
  refine ⟨fun hnone j hj => ?_, containing_eq_none⟩
  by_contra hbelow
  obtain ⟨i, hi⟩ := exists_nearest hj (Int.not_le.1 hbelow)
  rw [containing_of_nearest hascending hi] at hnone
  cases hnone

/-- In a built graph an address leads to the routine of the table that starts last before it, and
nowhere exactly if none starts before it. So all addresses behind a start up to the next one lead
to the same routine, all addresses behind the last start do, and a higher address never leads to a
routine that starts lower. -/
theorem containing_nearest {table : List (Fin n)} (hkeyed : c.Keyed table)
    (hbuild : (build c table).result = .ok g) :
    let found := g.containing (build c table).catalogue
    (∀ address i, found address = some i ↔ c.Nearest table address i) ∧
    (∀ address, found address = none ↔ ∀ i ∈ table, address ≤ c.start i) ∧
    (∀ i ∈ table, ∀ next ∈ table, c.Successor table i next →
      ∀ address, c.start i < address → address ≤ c.start next → found address = some i) ∧
    (∀ i ∈ table, (∀ j ∈ table, c.start j ≤ c.start i) →
      ∀ address, c.start i < address → found address = some i) ∧
    ∀ a b, a ≤ b → ∀ i, found a = some i → ∃ j, found b = some j ∧ c.start i ≤ c.start j := by
  intro found
  obtain ⟨hroutines, horder, -⟩ := build_ok hbuild
  have hstart : (build c table).catalogue.start = c.start := start_congr hroutines
  have hascending := ascending_order hkeyed hbuild
  have hmem : ∀ i, i ∈ g.order.toList ↔ i ∈ table := by
    intro i
    rw [horder, mem_sortByStart]
  have hsome : ∀ address i, found address = some i ↔ c.Nearest table address i := by
    intro address i
    rw [containing_eq_some_iff hascending]
    constructor
    · rintro ⟨hi, hbelow, hgreatest⟩
      simp only [hstart, hmem] at hi hbelow hgreatest
      exact ⟨hi, hbelow, hgreatest⟩
    · rintro ⟨hi, hbelow, hgreatest⟩
      constructor <;> simpa only [hstart, hmem]
  have hnone : ∀ address, found address = none ↔ ∀ i ∈ table, address ≤ c.start i := by
    intro address
    rw [containing_eq_none_iff hascending]
    simp only [hstart, hmem]
  refine ⟨hsome, hnone, ?_, ?_, ?_⟩
  · intro i hi next _ hnext address hbehind hupto
    exact (hsome address i).2 (.of_successor hi hnext hbehind hupto)
  · intro i hi hlast address hbehind
    exact (hsome address i).2 ⟨hi, hbehind, fun j hj _ => hlast j hj⟩
  · intro a b hab i hi
    have hnearest := (hsome a i).1 hi
    obtain ⟨j, hj⟩ := exists_nearest hnearest.mem (Int.lt_of_lt_of_le hnearest.below hab)
    exact ⟨j, (hsome b j).2 hj, hnearest.start_le_of_le hab hj⟩

/-- The routines of the table start at 0x30, 0x10, 0x20 and 0x40. -/
theorem containing_nearest_sharedCallee :
    sharedCallee.Keyed [0, 1, 2, 3] ∧
      (build sharedCallee [0, 1, 2, 3]).result = .ok sharedCalleeGraph ∧
      (let found := sharedCalleeGraph.containing (build sharedCallee [0, 1, 2, 3]).catalogue
       found (-1) = none ∧ found 0x10 = none ∧
       (∀ address, 0x10 < address → address ≤ 0x20 → found address = some 1) ∧
       (∀ address, 0x20 < address → address ≤ 0x30 → found address = some 2) ∧
       ∀ address, 0x40 < address → found address = some 3) := by
  have hkeyed : sharedCallee.Keyed [0, 1, 2, 3] := by
    unfold Catalogue.Keyed
    decide
  have hbuild : (build sharedCallee [0, 1, 2, 3]).result = .ok sharedCalleeGraph := by cbv
  obtain ⟨-, hnone, hbetween, hlast, -⟩ := containing_nearest hkeyed hbuild
  refine ⟨hkeyed, hbuild, (hnone _).2 (by decide), (hnone _).2 (by decide), ?_, ?_, ?_⟩
  · exact hbetween 1 (by decide) 2 (by decide) ⟨by decide, by decide⟩
  · exact hbetween 2 (by decide) 0 (by decide) ⟨by decide, by decide⟩
  · exact hlast 3 (by decide) (by decide)

end CallGraph
end StackDepth
