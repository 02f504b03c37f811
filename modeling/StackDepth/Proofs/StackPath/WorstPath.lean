import StackDepth.Proofs.StackPath.Expansion

/-!
# The worst path and all paths

The walk for the worst path keeps one path behind each frame, where the walk for all paths keeps
every one. Taking the first of the largest totals goes through both ways of building path lists,
appending and putting a node in front, so it may be done at each frame or once at the end.
`worstPath_isFirstLargest` compares the two walks on all catalogues, whatever the contributions
are and whether or not all callees are known.
-/
namespace StackDepth

variable {n : Nat}

namespace StackPath

/-- The path has the largest total of a list, and no path before it has the same total. -/
def IsFirstLargest (p : StackPath n) (paths : List (StackPath n)) : Prop :=
  ∃ earlier later, paths = earlier ++ p :: later ∧
    (∀ q ∈ earlier, q.total < p.total) ∧ ∀ q ∈ later, q.total ≤ p.total

theorem IsFirstLargest.le {p q : StackPath n} {paths : List (StackPath n)}
    (h : p.IsFirstLargest paths) (hq : q ∈ paths) : q.total ≤ p.total := by
  obtain ⟨earlier, later, rfl, hearlier, hlater⟩ := h
  rcases List.mem_append.1 hq with hq | hq
  · exact Int.le_of_lt (hearlier q hq)
  · rcases List.mem_cons.1 hq with rfl | hq
    · exact Int.le_refl _
    · exact hlater q hq

theorem IsFirstLargest.mem {p : StackPath n} {paths : List (StackPath n)}
    (h : p.IsFirstLargest paths) : p ∈ paths := by
  obtain ⟨earlier, later, rfl, -, -⟩ := h
  exact List.mem_append_right _ List.mem_cons_self

theorem larger_assoc (p q r : StackPath n) :
    larger (larger p q) r = larger p (larger q r) := by
  by_cases hpq : p.total < q.total
  · by_cases hqr : q.total < r.total
    · have hpr : p.total < r.total := Int.lt_trans hpq hqr
      simp only [larger, if_pos hpq, if_pos hqr, if_pos hpr]
    · simp only [larger, if_pos hpq, if_neg hqr]
  · by_cases hqr : q.total < r.total
    · simp only [larger, if_neg hpq, if_pos hqr]
    · have hpr : ¬ p.total < r.total := by omega
      simp only [larger, if_neg hpq, if_neg hqr, if_neg hpr]

theorem extend_larger (node : PathNode n) (p q : StackPath n) :
    (larger p q).extend node = larger (p.extend node) (q.extend node) := by
  have htotal : p.total + node.contribution < q.total + node.contribution ↔ p.total < q.total := by
    omega
  by_cases h : p.total < q.total
  · simp only [larger, extend, htotal, if_pos h]
  · simp only [larger, extend, htotal, if_neg h]

theorem foldl_larger (p q : StackPath n) (paths : List (StackPath n)) :
    paths.foldl larger (larger p q) = larger p (paths.foldl larger q) := by
  induction paths generalizing q with
  | nil => rfl
  | cons r paths ih =>
    rw [List.foldl_cons, List.foldl_cons, larger_assoc]
    exact ih (larger q r)

theorem foldl_larger_extend (node : PathNode n) (p : StackPath n) (paths : List (StackPath n)) :
    (paths.map (·.extend node)).foldl larger (p.extend node) =
      (paths.foldl larger p).extend node := by
  induction paths generalizing p with
  | nil => rfl
  | cons q paths ih =>
    rw [List.map_cons, List.foldl_cons, List.foldl_cons, ← extend_larger]
    exact ih (larger p q)

theorem foldl_larger_isFirstLargest (p : StackPath n) (paths : List (StackPath n)) :
    (paths.foldl larger p).IsFirstLargest (p :: paths) := by
  induction paths generalizing p with
  | nil => exact ⟨[], [], rfl, by simp, by simp⟩
  | cons q paths ih =>
    rw [List.foldl_cons]
    by_cases h : p.total < q.total
    · rw [larger, if_pos h]
      have hq := (ih q).le List.mem_cons_self
      obtain ⟨earlier, later, heq, hearlier, hlater⟩ := ih q
      refine ⟨p :: earlier, later, by rw [heq]; rfl, ?_, hlater⟩
      intro r hr
      rcases List.mem_cons.1 hr with rfl | hr
      · omega
      · exact hearlier r hr
    · rw [larger, if_neg h]
      obtain ⟨earlier, later, heq, hearlier, hlater⟩ := ih p
      cases earlier with
      | nil =>
        obtain ⟨hp, hpaths⟩ := List.cons.inj heq
        rw [← hp] at hlater ⊢
        refine ⟨[], q :: paths, rfl, by simp, ?_⟩
        intro r hr
        rcases List.mem_cons.1 hr with rfl | hr
        · omega
        · exact hlater r (hpaths ▸ hr)
      | cons p' earlier =>
        obtain ⟨rfl, hpaths⟩ := List.cons.inj heq
        have hp := hearlier p List.mem_cons_self
        refine ⟨p :: q :: earlier, later, congrArg (p :: q :: ·) hpaths, ?_, hlater⟩
        intro r hr
        rcases List.mem_cons.1 hr with rfl | hr
        · exact hp
        · rcases List.mem_cons.1 hr with rfl | hr
          · omega
          · exact hearlier r (List.mem_cons_of_mem _ hr)

end StackPath

namespace PathList

/-- The list of the first path of the largest total alone. -/
def prune (paths : PathList n) : PathList n := ⟨paths.largest, []⟩

theorem largest_isFirstLargest (paths : PathList n) :
    paths.largest.IsFirstLargest paths.toList :=
  StackPath.foldl_larger_isFirstLargest paths.first paths.others

theorem largest_append (paths more : PathList n) :
    (paths.append more).largest = StackPath.larger paths.largest more.largest := by
  rw [largest, append, List.foldl_append, toList, List.foldl_cons, StackPath.foldl_larger]
  rfl

theorem prune_extend (node : PathNode n) (paths : PathList n) :
    (paths.extend node).prune = paths.prune.extend node := by
  rw [prune, prune, largest, extend, StackPath.foldl_larger_extend]
  rfl

end PathList

open PathList

/-- Keeping the worst path at each callee comes to the worst path of all. -/
theorem Keep.add_worst (kept : Option (PathList n)) (paths : PathList n) :
    Keep.worst.add (kept.map prune) paths.prune = (Keep.all.add kept paths).prune := by
  cases kept with
  | none => rfl
  | some kept =>
    simp only [Keep.add, Option.map_some, prune, largest_append]
    rfl

theorem collect_worst {worst all : Fin n → Except GraphError (PathList n)}
    (h : ∀ j, worst j = (all j).map prune) (kept : Option (PathList n))
    (callees : List (Fin n)) :
    collect .worst worst (kept.map prune) callees =
      (collect .all all kept callees).map (Option.map prune) := by
  induction callees generalizing kept with
  | nil => rfl
  | cons callee later ih =>
    rw [collect, collect, h callee]
    cases all callee with
    | error e => rfl
    | ok paths =>
      simp only [Except.map]
      rw [Keep.add_worst]
      exact ih (some (Keep.all.add kept paths))

theorem Frame.paths_prune (node : PathNode n) (suffixes : Option (PathList n)) :
    Frame.paths ⟨node, [], suffixes.map prune⟩ = (Frame.paths ⟨node, [], suffixes⟩).prune := by
  cases suffixes with
  | none => rfl
  | some suffixes => exact (prune_extend node suffixes).symm

theorem expand_worst (c : Catalogue n) (config : Config) (visiting : AddressSet) (running : Int)
    (i : Fin n) :
    expand c config .worst visiting running i =
      (expand c config .all visiting running i).map prune := by
  induction visiting, i using c.visit_induction generalizing running with
  | visited visiting i h =>
    rw [expand_visited h, expand_visited h]
    rfl
  | unresolved visiting i h hcallees =>
    rw [expand_unresolved h hcallees, expand_unresolved h hcallees]
    rfl
  | resolved visiting i callees h hcallees ih =>
    rw [expand_resolved h hcallees, expand_resolved h hcallees]
    have hcollect := collect_worst
      (fun j => ih j (nodeOf c config running i).cumulative) none callees
    rw [Option.map_none] at hcollect
    rw [hcollect]
    cases collect .all (expand c config .all (visiting.insert (c.start i))
        (nodeOf c config running i).cumulative) none callees with
    | error e => rfl
    | ok suffixes => simp only [Except.map, Frame.paths_prune]

theorem worstPath_eq_largest (c : Catalogue n) (config : Config) (root : Fin n) :
    worstPath c config root = (pathsFrom c config root).map (·.largest) := by
  rw [worstPath_eq_expand, pathsFrom_eq_expand, expand_worst]
  cases expand c config .all ∅ 0 root with
  | error e => rfl
  | ok paths => rfl

theorem worstPath_of_expand {c : Catalogue n} {config : Config} {root : Fin n}
    {paths : PathList n} (h : expand c config .all ∅ 0 root = .ok paths) :
    worstPath c config root = .ok paths.largest := by
  rw [worstPath_eq_largest, pathsFrom_eq_expand, h]
  rfl

/-- From every routine, either there are paths, the callees of all routines entered are known, and
the worst path is the first of the largest total among the paths; or the callees of some routine
entered are not known, and both walks fail at the same routine. -/
theorem worstPath_isFirstLargest (c : Catalogue n) (config : Config) (root : Fin n) :
    (∃ paths worst, pathsFrom c config root = .ok paths ∧ worstPath c config root = .ok worst ∧
      worst.IsFirstLargest paths.toList ∧
      ∀ i, Entered c ∅ root i → (c.callees? i).isSome) ∨
    (∃ i, Entered c ∅ root i ∧ c.callees? i = none ∧
      pathsFrom c config root = .error (.unresolved (c.routine i).name) ∧
      worstPath c config root = .error (.unresolved (c.routine i).name)) := by
  rw [worstPath_eq_largest, pathsFrom_eq_expand]
  cases hexpand : expand c config .all ∅ 0 root with
  | ok paths =>
    left
    exact ⟨paths, paths.largest, rfl, rfl, paths.largest_isFirstLargest,
      fun i hi => hi.isSome_callees hexpand⟩
  | error e =>
    right
    obtain ⟨i, hentered, hcallees, rfl⟩ := exists_entered_of_expand_error hexpand
    exact ⟨i, hentered, hcallees, rfl, rfl⟩

end StackDepth
