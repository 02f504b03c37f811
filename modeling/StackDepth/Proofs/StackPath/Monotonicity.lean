import Mathlib
import StackDepth.Proofs.StackPath.WorstCaseBound

/-!
# Worst paths of a larger graph

More calls and more bytes do not make worst paths smaller. The paths of a graph need not be paths
of a larger one: a new call may lead back to a routine on the path, and a leaf may become a caller.
But what a trail visits depends on the routines on it alone. As long as a trail of the larger graph
takes the calls of a given one it is cut off nowhere else, and from a routine that was a leaf there
is some trail on. So every trail is the beginning of a trail of the larger graph.

Start addresses decide where a trail is cut off, so they must agree; whether two routines share one
does not matter.
-/
namespace StackDepth

variable {n : Nat}

/-- A second catalogue has at least the calls of the first one between routines of a table, which
start where they did and take no fewer bytes. -/
structure Catalogue.Enlarged (c d : Catalogue n) (table : List (Fin n)) : Prop where
  start : ∀ i ∈ table, d.start i = c.start i
  calls : ∀ i ∈ table, ∀ j, c.Calls i j → d.Calls i j
  stackUsed : ∀ i ∈ table, (c.routine i).stackUsed ≤ (d.routine i).stackUsed

namespace Trail

variable {c d : Catalogue n} {table : List (Fin n)} {visiting : AddressSet} {i : Fin n}
variable {tail : List (Fin n)} {recursive : Bool}

theorem exists_of_closed (h : c.Closed table) (visiting : AddressSet) (hi : i ∈ table) :
    ∃ tail recursive, Trail c visiting i tail recursive := by
  obtain ⟨paths, hpaths⟩ := h.exists_expand {} .all visiting 0 hi
  obtain ⟨tail, recursive, htrail, -⟩ := (mem_expand_iff hpaths paths.first).1 List.mem_cons_self
  exact ⟨tail, recursive, htrail⟩

theorem mem_table (htrail : Trail c visiting i tail recursive) (h : c.Closed table)
    (hi : i ∈ table) : ∀ j ∈ i :: tail, j ∈ table := by
  induction htrail with
  | cut => simpa using hi
  | leaf => simpa using hi
  | call _ hcalls _ ih =>
    intro j hj
    rcases List.mem_cons.1 hj with rfl | hj
    · exact hi
    · exact ih (h.mem_of_calls hi hcalls) j hj

/-- A trail is the beginning of a trail of the larger graph. -/
theorem exists_enlarged (htrail : Trail c visiting i tail recursive)
    (henlarged : c.Enlarged d table) (h : d.Closed table) (hi : i ∈ table) :
    ∃ tail' recursive', Trail d visiting i tail' recursive' ∧ tail <+: tail' := by
  induction htrail with
  | @cut visiting i hvisited =>
    rw [← henlarged.start i hi] at hvisited
    exact ⟨[], true, .cut hvisited, List.prefix_rfl⟩
  | @leaf visiting i =>
    obtain ⟨tail', recursive', htrail'⟩ := exists_of_closed h visiting hi
    exact ⟨tail', recursive', htrail', List.nil_prefix⟩
  | @call visiting i j tail recursive hfresh hcalls _ ih =>
    have hcalls' := henlarged.calls i hi j hcalls
    obtain ⟨tail', recursive', htrail', hprefix⟩ := ih (h.mem_of_calls hi hcalls')
    rw [← henlarged.start i hi] at hfresh htrail'
    exact ⟨j :: tail', recursive', .call hfresh hcalls' htrail',
      List.cons_prefix_cons.2 ⟨rfl, hprefix⟩⟩

end Trail

/-- Between two graphs over the same routines, the larger one has the larger worst paths, if all
its contributions are non-negative. -/
theorem worstPath_mono {c d : Catalogue n} {table : List (Fin n)} (config : Config)
    (hc : c.Closed table) (hd : d.Closed table) (henlarged : c.Enlarged d table)
    (hnonneg : ∀ i ∈ table, 0 ≤ (d.routine i).contribution config) {root : Fin n}
    (hroot : root ∈ table) :
    ∃ worst worst', worstPath c config root = .ok worst ∧ worstPath d config root = .ok worst' ∧
      worst.total ≤ worst'.total := by
  obtain ⟨paths, hpaths⟩ := hc.exists_expand config .all ∅ 0 hroot
  obtain ⟨paths', hpaths'⟩ := hd.exists_expand config .all ∅ 0 hroot
  refine ⟨_, _, worstPath_of_expand hpaths, worstPath_of_expand hpaths', ?_⟩
  obtain ⟨tail, recursive, htrail, hworst⟩ :=
    (mem_expand_iff hpaths _).1 paths.largest_isFirstLargest.mem
  obtain ⟨tail', recursive', htrail', hprefix⟩ := htrail.exists_enlarged henlarged hd hroot
  have hmem := htrail.mem_table hc hroot
  have hmem' := htrail'.mem_table hd hroot
  calc paths.largest.total
      = ((root :: tail).map fun i => (c.routine i).contribution config).sum := by
        rw [hworst, StackPath.total_along]
    _ ≤ ((root :: tail).map fun i => (d.routine i).contribution config).sum := by
        refine List.sum_le_sum fun i hi => ?_
        exact Int.add_le_add_right (henlarged.stackUsed i (hmem i hi)) _
    _ ≤ ((root :: tail').map fun i => (d.routine i).contribution config).sum := by
        refine sum_map_le_of_prefix (List.cons_prefix_cons.2 ⟨rfl, hprefix⟩) fun i hi => ?_
        exact hnonneg i (hmem' i hi)
    _ = (StackPath.along d config recursive' 0 root tail').total := by
        rw [StackPath.total_along]
    _ ≤ paths'.largest.total := by
        apply paths'.largest_isFirstLargest.le
        exact (mem_expand_iff hpaths' _).2 ⟨tail', recursive', htrail', rfl⟩

/-- Three routines, each of which calls the next one. -/
def straightCalls : Catalogue 3 where
  routines := #v[{ name := "main", start := 0x10, stackUsed := 4 },
    { name := "work", start := 0x20, stackUsed := -2 }, { name := "tail", start := 0x30 }]
  resolved := .ofFn fun i => some ((List.finRange 3).filter fun j => i.val + 1 = j.val)

/-- The same routines, each of which calls all of them, so that there is no leaf. -/
def loopedCalls : Catalogue 3 where
  routines := #v[{ name := "main", start := 0x10, stackUsed := 4 },
    { name := "work", start := 0x20, stackUsed := 1 }, { name := "tail", start := 0x30 }]
  resolved := .ofFn fun _ => some (List.finRange 3)

theorem worstPath_mono_straightCalls :
    straightCalls.Closed [0, 1, 2] ∧ loopedCalls.Closed [0, 1, 2] ∧
      straightCalls.Enlarged loopedCalls [0, 1, 2] ∧
      (∀ i ∈ [0, 1, 2], 0 ≤ (loopedCalls.routine i).contribution {}) ∧
      ∃ worst worst', worstPath straightCalls {} 0 = .ok worst ∧
        worstPath loopedCalls {} 0 = .ok worst' ∧ worst.total ≤ worst'.total := by
  have hstraight : straightCalls.Closed [0, 1, 2] := fun i _ =>
    ⟨CallGraph.calleesOf straightCalls i, by revert i; decide, by revert i; decide⟩
  have hlooped : loopedCalls.Closed [0, 1, 2] := fun i _ =>
    ⟨CallGraph.calleesOf loopedCalls i, by revert i; decide, by revert i; decide⟩
  have hcalls : ∀ i, ∀ j ∈ CallGraph.calleesOf straightCalls i,
      j ∈ CallGraph.calleesOf loopedCalls i := by decide
  have henlarged : straightCalls.Enlarged loopedCalls [0, 1, 2] :=
    ⟨by decide, fun i _ j hij => mem_calleesOf.1 (hcalls i j (mem_calleesOf.2 hij)), by decide⟩
  have hnonneg : ∀ i ∈ [0, 1, 2], 0 ≤ (loopedCalls.routine i).contribution {} := by decide
  exact ⟨hstraight, hlooped, henlarged, hnonneg,
    worstPath_mono {} hstraight hlooped henlarged hnonneg (by decide)⟩

end StackDepth
