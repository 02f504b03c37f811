import Mathlib
import StackDepth.Proofs.StackPath.WorstPath

/-!
# Paths from several roots

The worst paths and all paths of some roots can be asked for one after the other or in one survey.
The survey takes the largest path out of each list of paths, where the worst path is found by a
walk of its own; both are the same path (`worstPath_eq_largest`), and the first root that fails is
the same root.

Sorting by total is stable, so the first of the sorted paths is the first of the largest total. It
is therefore the same path whether all paths are sorted, or only the largest one of each root.
-/
namespace StackDepth

variable {n : Nat}

/-! ### Queries one after another -/

section
variable {α β γ ε : Type} {f : α → Except ε β} {l : List α} {found : List β}

theorem mapM_map (f : α → Except ε β) (g : β → γ) (l : List α) :
    l.mapM (fun a => (f a).map g) = (l.mapM f).map (List.map g) := by
  induction l with
  | nil => rfl
  | cons a rest ih =>
    rw [List.mapM_cons, List.mapM_cons, ih]
    cases f a with
    | error e => rfl
    | ok b =>
      cases rest.mapM f with
      | error e => rfl
      | ok bs => rfl

theorem mapM_cons_eq_ok_iff {a : α} :
    (a :: l).mapM f = .ok found ↔
      ∃ b bs, f a = .ok b ∧ l.mapM f = .ok bs ∧ found = b :: bs := by
  rw [List.mapM_cons]
  cases f a with
  | error e => exact ⟨nofun, nofun⟩
  | ok b =>
    cases l.mapM f with
    | error e => exact ⟨nofun, nofun⟩
    | ok bs =>
      constructor
      · intro h
        cases h
        exact ⟨b, bs, rfl, rfl, rfl⟩
      · rintro ⟨_, _, hb, hbs, rfl⟩
        cases hb
        cases hbs
        rfl

theorem exists_mapM_ok (h : ∀ a ∈ l, ∃ b, f a = .ok b) : ∃ bs, l.mapM f = .ok bs := by
  induction l with
  | nil => exact ⟨[], rfl⟩
  | cons a rest ih =>
    obtain ⟨b, hb⟩ := h a List.mem_cons_self
    obtain ⟨bs, hbs⟩ := ih fun x hx => h x (List.mem_cons_of_mem _ hx)
    exact ⟨b :: bs, mapM_cons_eq_ok_iff.2 ⟨b, bs, hb, hbs, rfl⟩⟩

theorem mem_mapM_ok (h : l.mapM f = .ok found) (b : β) : b ∈ found ↔ ∃ a ∈ l, f a = .ok b := by
  induction l generalizing found with
  | nil =>
    cases h
    simp
  | cons a rest ih =>
    obtain ⟨b', bs, hhead, htail, rfl⟩ := mapM_cons_eq_ok_iff.1 h
    simp only [List.mem_cons, ih htail, exists_eq_or_imp, hhead, Except.ok.injEq]
    exact or_congr_left eq_comm

end

/-! ### Sorting by total -/

namespace StackPath

theorem mem_sortByTotal {p : StackPath n} {paths : List (StackPath n)} :
    p ∈ sortByTotal paths ↔ p ∈ paths :=
  List.mem_mergeSort

theorem total_trans (p q r : StackPath n) (hpq : decide (q.total ≤ p.total) = true)
    (hqr : decide (r.total ≤ q.total) = true) : decide (r.total ≤ p.total) = true := by
  simp only [decide_eq_true_eq] at *
  omega

theorem total_total (p q : StackPath n) :
    (decide (q.total ≤ p.total) || decide (p.total ≤ q.total)) = true := by
  simp only [Bool.or_eq_true, decide_eq_true_eq]
  omega

theorem pairwise_sortByTotal (paths : List (StackPath n)) :
    (sortByTotal paths).Pairwise fun p q => decide (q.total ≤ p.total) = true :=
  List.pairwise_mergeSort total_trans total_total paths

@[simp] theorem sortByTotal_sortByTotal (paths : List (StackPath n)) :
    sortByTotal (sortByTotal paths) = sortByTotal paths :=
  List.mergeSort_of_pairwise (pairwise_sortByTotal paths)

theorem head?_sortByTotal (p : StackPath n) (paths : List (StackPath n)) :
    (sortByTotal (p :: paths)).head? = some (paths.foldl larger p) := by
  induction paths generalizing p with
  | nil => simp [sortByTotal]
  | cons q paths ih =>
    have hlater := ih q
    have hsorted := pairwise_sortByTotal (p :: q :: paths)
    obtain ⟨before, behind, hsort, hrest, hbefore⟩ :=
      List.mergeSort_cons total_trans total_total p (q :: paths)
    rw [sortByTotal, hrest] at hlater
    rw [sortByTotal, hsort] at hsorted ⊢
    rw [List.foldl_cons, foldl_larger]
    cases before with
    | nil =>
      have hle := List.rel_of_pairwise_cons hsorted (List.mem_of_mem_head? hlater)
      rw [decide_eq_true_eq] at hle
      rw [larger, if_neg (by omega)]
      rfl
    | cons top before =>
      have htop : top = paths.foldl larger q := Option.some.inj hlater
      have hlt := hbefore top List.mem_cons_self
      simp only [Bool.not_eq_true', decide_eq_false_iff_not, not_le] at hlt
      rw [← htop, larger, if_pos hlt]
      rfl

end StackPath

namespace PathList

open StackPath (sortByTotal)

theorem largest_foldl_append (first : PathList n) (rest : List (PathList n)) :
    (rest.foldl append first).largest =
      (rest.map largest).foldl StackPath.larger first.largest := by
  induction rest generalizing first with
  | nil => rfl
  | cons paths rest ih =>
    rw [List.foldl_cons, ih, largest_append]
    rfl

theorem toList_foldl_append (first : PathList n) (rest : List (PathList n)) :
    (rest.foldl append first).toList = first.toList ++ rest.flatMap toList := by
  induction rest generalizing first with
  | nil => simp
  | cons paths rest ih =>
    rw [List.foldl_cons, ih, List.flatMap_cons, ← List.append_assoc]
    rfl

/-- The largest paths of several lists come with the largest path of all lists in front. -/
theorem head?_sortByTotal_largest (lists : List (PathList n)) :
    (sortByTotal (lists.map largest)).head? = (sortByTotal (lists.flatMap toList)).head? := by
  cases lists with
  | nil => rfl
  | cons first rest =>
    rw [List.map_cons, StackPath.head?_sortByTotal, ← largest_foldl_append, List.flatMap_cons,
      ← toList_foldl_append]
    exact (StackPath.head?_sortByTotal _ _).symm

end PathList

/-! ### Surveys -/

section
variable {c : Catalogue n} {config : Config} {roots : List (Fin n)} {lists : List (PathList n)}

theorem mapM_worstPath (c : Catalogue n) (config : Config) (roots : List (Fin n)) :
    roots.mapM (worstPath c config) =
      (roots.mapM (pathsFrom c config)).map (List.map (·.largest)) := by
  rw [← mapM_map]
  exact congrArg roots.mapM (funext (worstPath_eq_largest c config))

theorem worstPaths_of_mapM (h : roots.mapM (pathsFrom c config) = .ok lists) :
    worstPaths c config roots = .ok (StackPath.sortByTotal (lists.map (·.largest))) := by
  rw [worstPaths, mapM_worstPath, h]
  rfl

theorem allPaths_of_mapM (h : roots.mapM (pathsFrom c config) = .ok lists) :
    allPaths c config roots = .ok (StackPath.sortByTotal (lists.flatMap (·.toList))) := by
  rw [allPaths, h]
  rfl

theorem survey_of_mapM (h : roots.mapM (pathsFrom c config) = .ok lists) :
    survey c config roots = .ok ⟨StackPath.sortByTotal (lists.map (·.largest)),
      StackPath.sortByTotal (lists.flatMap (·.toList))⟩ := by
  rw [survey, h]
  rfl

/-- Where there are roots, the worst paths and all paths begin with the same path. -/
theorem exists_head?_of_mapM (h : roots.mapM (pathsFrom c config) = .ok lists)
    (hne : roots ≠ []) :
    ∃ p, (StackPath.sortByTotal (lists.map (·.largest))).head? = some p ∧
      (StackPath.sortByTotal (lists.flatMap (·.toList))).head? = some p := by
  obtain ⟨root, rest, rfl⟩ := List.exists_cons_of_ne_nil hne
  obtain ⟨first, others, -, -, rfl⟩ := mapM_cons_eq_ok_iff.1 h
  rw [← PathList.head?_sortByTotal_largest, List.map_cons, StackPath.head?_sortByTotal]
  exact ⟨_, rfl, rfl⟩

theorem Catalogue.Closed.exists_pathsFrom {table : List (Fin n)} (h : c.Closed table)
    (config : Config) {root : Fin n} (hroot : root ∈ table) :
    ∃ paths, pathsFrom c config root = .ok paths := by
  rw [pathsFrom_eq_expand]
  exact h.exists_expand config .all ∅ 0 hroot

theorem Catalogue.Closed.exists_mapM_pathsFrom {table : List (Fin n)} (h : c.Closed table)
    (config : Config) (hroots : ∀ root ∈ roots, root ∈ table) :
    ∃ lists, roots.mapM (pathsFrom c config) = .ok lists := by
  apply exists_mapM_ok
  intro root hroot
  exact h.exists_pathsFrom config (hroots root hroot)

theorem mem_allPaths_iff (h : roots.mapM (pathsFrom c config) = .ok lists) (p : StackPath n) :
    p ∈ StackPath.sortByTotal (lists.flatMap (·.toList)) ↔
      ∃ root ∈ roots, ∃ paths, pathsFrom c config root = .ok paths ∧ p ∈ paths.toList := by
  simp only [StackPath.mem_sortByTotal, List.mem_flatMap, mem_mapM_ok h]
  constructor
  · rintro ⟨paths, ⟨root, hroot, hpaths⟩, hp⟩
    exact ⟨root, hroot, paths, hpaths, hp⟩
  · rintro ⟨root, hroot, paths, hpaths, hp⟩
    exact ⟨paths, ⟨root, hroot, hpaths⟩, hp⟩

end
end StackDepth
