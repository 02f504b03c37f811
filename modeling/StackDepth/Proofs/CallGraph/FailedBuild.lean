import Mathlib
import StackDepth.Proofs.CallGraph.WriteOnce

/-!
# What a failed build leaves behind

The routines of a table are resolved in the order of their addresses, and a build fails at the first
one that has callees already. Nothing is taken back. The routines in front of it keep the callees
that they were given, which are those of a build without any failure, and the routines behind it are
not reached. The missing targets of a routine are reported before it is resolved, so that those of
the failing routine itself are reported too.

The routine at which the build failed is still resolved afterwards, and whatever is done to the
catalogue leaves it so. Therefore no build of the table can succeed any more.
-/
namespace StackDepth

variable {n : Nat}

namespace Catalogue

/-- The same routines without any callees. -/
def cleared (c : Catalogue n) : Catalogue n := { c with resolved := .replicate n none }

theorem callees?_cleared (c : Catalogue n) (i : Fin n) : c.cleared.callees? i = none := by
  simp [callees?, cleared]

theorem isResolved_iff {c : Catalogue n} {i : Fin n} :
    c.isResolved i = true ↔ ∃ callees, c.callees? i = some callees :=
  Option.isSome_iff_exists

theorem callees?_of_not_isResolved {c : Catalogue n} {i : Fin n} (h : ¬ c.isResolved i = true) :
    c.callees? i = none := by
  rwa [isResolved, Option.not_isSome_iff_eq_none] at h

/-- Of the routines of a table that have callees already, the one with the lowest address. -/
structure FirstResolved (c : Catalogue n) (table : List (Fin n)) (i : Fin n) : Prop where
  mem : i ∈ table
  resolved : c.isResolved i = true
  lowest : ∀ j ∈ table, c.isResolved j = true → c.start i ≤ c.start j

theorem exists_firstResolved {c : Catalogue n} {table : List (Fin n)}
    (h : ∃ i ∈ table, c.isResolved i = true) : ∃ i, c.FirstResolved table i := by
  obtain ⟨i, hi, hresolved⟩ := h
  obtain ⟨first, hfirst, hlowest⟩ :=
    (table.filter c.isResolved).toFinset.exists_min_image c.start
      ⟨i, List.mem_toFinset.2 (List.mem_filter.2 ⟨hi, hresolved⟩)⟩
  rw [List.mem_toFinset, List.mem_filter] at hfirst
  refine ⟨first, hfirst.1, hfirst.2, fun j hj hjresolved => ?_⟩
  exact hlowest j (List.mem_toFinset.2 (List.mem_filter.2 ⟨hj, hjresolved⟩))

end Catalogue

namespace CallGraph

open Catalogue

variable {c : Catalogue n} {table : List (Fin n)} {i : Fin n}

/-! ### Resolving up to a routine that has callees -/

/-- Routines that can be resolved may be resolved first, and the others from what they leave. -/
theorem resolveAll_append (table : List (Fin n)) {front : List (Fin n)}
    (h : (resolveAll table c front).result = .ok ()) (rest : List (Fin n)) :
    resolveAll table c (front ++ rest) =
      let later := resolveAll table (resolveAll table c front).catalogue rest
      { later with diagnostics := (resolveAll table c front).diagnostics ++ later.diagnostics } := by
  induction front generalizing c with
  | nil => rfl
  | cons j front ih =>
    rw [List.cons_append, resolveAll]
    rw [resolveAll] at h ⊢
    cases hresolve : c.resolve j (targetsIn c table j) with
    | error e =>
      simp only [hresolve] at h
      cases h
    | ok d =>
      simp only [hresolve] at h ⊢
      simp only [ih h, List.append_assoc]

theorem resolveAll_stops (table : List (Fin n)) {front : List (Fin n)} (rest : List (Fin n))
    (hdistinct : front.Nodup) (hfront : ∀ j ∈ front, c.callees? j = none)
    (hi : c.isResolved i = true) :
    let attempt := resolveAll table c (front ++ i :: rest)
    attempt.result = .error (.resolvedTwice (c.routine i).name) ∧
      attempt.diagnostics = (front ++ [i]).flatMap (missingTargets c table) ∧
      attempt.catalogue.routines = c.routines ∧
      ∀ j, attempt.catalogue.callees? j =
        if j ∈ front then some (targetsIn c table j) else c.callees? j := by
  intro attempt
  obtain ⟨hresult, hdiagnostics⟩ := resolveAll_of_unresolved table hdistinct hfront
  obtain ⟨hroutines, hcallees⟩ := resolveAll_ok hresult
  obtain ⟨known, hknown⟩ := isResolved_iff.1 hi
  have hnotin : i ∉ front := by
    intro hmem
    rw [hfront i hmem] at hknown
    cases hknown
  have hstop : (resolveAll table c front).catalogue.resolve i
      (targetsIn (resolveAll table c front).catalogue table i) =
        .error (.resolvedTwice (c.routine i).name) := by
    rw [resolve, hcallees i, if_neg hnotin, hknown, routine, routine, hroutines]
  have hattempt : attempt = ⟨(resolveAll table c front).catalogue,
      front.flatMap (missingTargets c table) ++ missingTargets c table i,
      .error (.resolvedTwice (c.routine i).name)⟩ := by
    simp only [attempt, resolveAll_append table hresult, resolveAll, hstop, hdiagnostics,
      missingTargets_congr hroutines]
  rw [hattempt]
  refine ⟨rfl, ?_, hroutines, hcallees⟩
  rw [List.flatMap_append, List.flatMap_singleton]

/-! ### The order of the table, cut at a routine -/

theorem exists_sortByStart_eq (hkeyed : c.Keyed table) (hi : i ∈ table) :
    ∃ front rest, sortByStart c table = front ++ i :: rest ∧
      (∀ j, j ∈ front ↔ j ∈ table ∧ c.start j < c.start i) ∧
      ∀ j ∈ rest, c.start i < c.start j := by
  obtain ⟨front, rest, horder⟩ := List.append_of_mem (mem_sortByStart.2 hi)
  have hascending := pairwise_sortByStart hkeyed
  rw [horder, List.pairwise_append, List.pairwise_cons] at hascending
  obtain ⟨-, ⟨hrest, -⟩, hfront⟩ := hascending
  refine ⟨front, rest, horder, fun j => ⟨fun hj => ?_, ?_⟩, hrest⟩
  · have hmem : j ∈ sortByStart c table := horder ▸ List.mem_append_left _ hj
    exact ⟨mem_sortByStart.1 hmem, hfront j hj i List.mem_cons_self⟩
  · rintro ⟨hj, hlt⟩
    rw [← mem_sortByStart, horder, List.mem_append, List.mem_cons] at hj
    rcases hj with hj | rfl | hj
    · exact hj
    · exact absurd hlt (Int.lt_irrefl _)
    · have hgt := hrest j hj
      omega

theorem fst_mem_of_mem_flatMap {among : List (Fin n)} {call : Call n}
    (h : call ∈ among.flatMap fun j => (missingAddresses c table j).map (j, ·)) :
    call.1 ∈ among := by
  obtain ⟨j, hj, hcall⟩ := List.mem_flatMap.1 h
  obtain ⟨address, -, rfl⟩ := List.mem_map.1 hcall
  exact hj

/-- The warnings about routines up to an address are those of the calls that they make. -/
theorem flatMap_missingTargets_upTo {order front rest : List (Fin n)}
    (horder : order = front ++ i :: rest) (hfront : ∀ j ∈ front, c.start j < c.start i)
    (hrest : ∀ j ∈ rest, c.start i < c.start j) :
    (front ++ [i]).flatMap (missingTargets c order) =
      ((missingCalls c order).filter fun call => c.start call.1 ≤ c.start i).map
        fun call => missingWarning c call.1 call.2 := by
  have hsplit : missingCalls c order =
      ((front ++ [i]).flatMap fun j => (missingAddresses c order j).map (j, ·)) ++
        rest.flatMap fun j => (missingAddresses c order j).map (j, ·) := by
    rw [← List.flatMap_append, List.append_assoc, List.singleton_append, ← horder, missingCalls]
  have hkept : ∀ call ∈ (front ++ [i]).flatMap fun j => (missingAddresses c order j).map (j, ·),
      decide (c.start call.1 ≤ c.start i) = true := by
    intro call hcall
    rw [decide_eq_true_eq]
    rcases List.mem_append.1 (fst_mem_of_mem_flatMap hcall) with hfst | hfst
    · exact Int.le_of_lt (hfront call.1 hfst)
    · rw [List.mem_singleton.1 hfst]
  have hdropped : ∀ call ∈ rest.flatMap fun j => (missingAddresses c order j).map (j, ·),
      ¬ decide (c.start call.1 ≤ c.start i) = true := by
    intro call hcall
    rw [decide_eq_true_eq]
    exact Int.not_le.2 (hrest call.1 (fst_mem_of_mem_flatMap hcall))
  rw [hsplit, List.filter_append, List.filter_eq_self.2 hkept, List.filter_eq_nil_iff.2 hdropped,
    List.append_nil, List.map_flatMap]
  simp only [List.map_map]
  rfl

/-! ### The build -/

/-- What a build leaves behind that stops at a routine: those with lower addresses have the callees
that they should have, all others are as they were, and the missing targets are reported up to and
with the routine where it stopped. -/
structure StoppedAt (c : Catalogue n) (table : List (Fin n)) (i : Fin n) : Prop where
  result : (build c table).result = .error (.resolvedTwice (c.routine i).name)
  routines : (build c table).catalogue.routines = c.routines
  before : ∀ j ∈ table, c.start j < c.start i → c.callees? j = none ∧
    ∃ callees, (build c table).catalogue.callees? j = some callees ∧
      (build c.cleared table).catalogue.callees? j = some callees
  others : ∀ j, j ∉ table ∨ c.start i ≤ c.start j →
    (build c table).catalogue.callees? j = c.callees? j
  warnings : ∃ missing : List (Call n),
    (build c table).diagnostics = (missing.map fun call => missingWarning c call.1 call.2) ∧
    missing.Pairwise (Call.Before c) ∧
    ∀ call, call ∈ missing ↔ call.1 ∈ table ∧ c.start call.1 ≤ c.start i ∧
      call.2 ∈ (c.routine call.1).callTargets ∧ ∀ j ∈ table, c.start j ≠ call.2

/-- A build without any failure gives the same callees, whatever was known before: neither the
order of the table nor the targets depend on it. -/
theorem callees?_build_cleared (hkeyed : c.Keyed table) {j : Fin n} (hj : j ∈ table) :
    (build c.cleared table).catalogue.callees? j =
      some (targetsIn c (sortByStart c table) j) := by
  obtain ⟨g, hresult, -⟩ :=
    build_of_unresolved (c := c.cleared) hkeyed fun i _ => c.callees?_cleared i
  obtain ⟨-, -, hcallees⟩ := build_ok hresult
  exact (hcallees j hj).trans (congrArg some (targetsIn_congr rfl (sortByStart c table) j))

theorem stoppedAt_firstResolved (hkeyed : c.Keyed table) (h : c.FirstResolved table i) :
    StoppedAt c table i := by
  obtain ⟨front, rest, horder, hfront, hrest⟩ := exists_sortByStart_eq hkeyed h.mem
  have hunresolved : ∀ j ∈ front, c.callees? j = none := by
    intro j hj
    obtain ⟨hmem, hlt⟩ := (hfront j).1 hj
    refine callees?_of_not_isResolved fun hresolved => ?_
    exact Int.not_le.2 hlt (h.lowest j hmem hresolved)
  have hdistinct : front.Nodup := by
    have hnodup := (keyed_sortByStart hkeyed).nodup
    rw [horder] at hnodup
    exact hnodup.of_append_left
  obtain ⟨hresult, hdiagnostics, hroutines, hcallees⟩ :=
    resolveAll_stops (sortByStart c table) rest hdistinct hunresolved h.resolved
  rw [← horder] at hresult hdiagnostics hroutines hcallees
  refine ⟨?_, hroutines, ?_, ?_, (missingCalls c (sortByStart c table)).filter
    fun call => c.start call.1 ≤ c.start i, ?_, ?_, ?_⟩
  · rw [build]
    simp only [hresult]
    rfl
  · intro j hj hlt
    have hmem := (hfront j).2 ⟨hj, hlt⟩
    refine ⟨hunresolved j hmem, _, (hcallees j).trans (if_pos hmem), ?_⟩
    exact callees?_build_cleared hkeyed hj
  · intro j hj
    refine (hcallees j).trans (if_neg fun hmem => ?_)
    obtain ⟨hjtable, hlt⟩ := (hfront j).1 hmem
    rcases hj with hj | hle
    · exact hj hjtable
    · omega
  · refine hdiagnostics.trans (flatMap_missingTargets_upTo horder ?_ hrest)
    exact fun j hj => ((hfront j).1 hj).2
  · exact (pairwise_missingCalls (pairwise_sortByStart hkeyed)).filter _
  · intro call
    simp only [List.mem_filter, mem_missingCalls_iff, mem_sortByStart, decide_eq_true_eq]
    tauto

theorem build_error_iff (hkeyed : c.Keyed table) :
    (∃ e, (build c table).result = .error e) ↔ ∃ i ∈ table, c.isResolved i = true := by
  constructor
  · rintro ⟨e, herror⟩
    by_contra hnone
    push Not at hnone
    obtain ⟨g, hresult, -⟩ :=
      build_of_unresolved hkeyed fun i hi => callees?_of_not_isResolved (hnone i hi)
    rw [hresult] at herror
    cases herror
  · intro hresolved
    obtain ⟨i, hfirst⟩ := exists_firstResolved hresolved
    exact ⟨_, (stoppedAt_firstResolved hkeyed hfirst).result⟩

/-- A build over a keyed table fails exactly if some routine of the table has callees already. It
then stops at the lowest such routine and leaves behind what was done up to there. Whatever happens
to the catalogue afterwards, a further build over the table fails again. -/
theorem failed_build_stops (c : Catalogue n) (table : List (Fin n)) (hkeyed : c.Keyed table) :
    ((∃ e, (build c table).result = .error e) ↔ ∃ i ∈ table, c.isResolved i = true) ∧
    ((∃ i ∈ table, c.isResolved i = true) →
      (∃ i, c.FirstResolved table i ∧ StoppedAt c table i) ∧
      ∀ d, (build c table).catalogue.Extends d → ∃ e, (build d table).result = .error e) := by
  refine ⟨build_error_iff hkeyed, fun hresolved => ?_⟩
  obtain ⟨i, hfirst⟩ := exists_firstResolved hresolved
  have hstopped := stoppedAt_firstResolved hkeyed hfirst
  refine ⟨⟨i, hfirst, hstopped⟩, fun d hextends => ?_⟩
  obtain ⟨callees, hcallees⟩ := isResolved_iff.1 hfirst.resolved
  have hafter := (hstopped.others i (.inr (Int.le_refl _))).trans hcallees
  have hstays : d.isResolved i = true :=
    isResolved_iff.2 ⟨callees, hextends.callees i callees hafter⟩
  refine (build_error_iff ?_).2 ⟨i, hfirst.mem, hstays⟩
  exact ((extends_build c table).trans hextends).keyed hkeyed

/-- `work` was given a callee by hand. The build resolves `main`, reports what both of them call and
stops; `leaf` is not reached. -/
theorem failed_build_stops_crossCalls :
    let c := (Session.perform ⟨crossCalls, []⟩ (.resolve 0 [2])).catalogue
    let after := (build c [2, 0, 1]).catalogue
    c.Keyed [2, 0, 1] ∧ (∃ i ∈ [2, 0, 1], c.isResolved i = true) ∧
      (build c [2, 0, 1]).result = .error (.resolvedTwice "work") ∧
      after.isResolved 1 = true ∧ after.callees? 0 = some [2] ∧ after.callees? 2 = none ∧
      (build c [2, 0, 1]).diagnostics = [missingWarning c 1 0x50, missingWarning c 0 0x99] ∧
      ∃ e, (build after [2, 0, 1]).result = .error e := by
  intro c after
  have hkeyed : c.Keyed [2, 0, 1] := by
    unfold Catalogue.Keyed
    decide
  have hresolved : ∃ i ∈ [2, 0, 1], c.isResolved i = true := by decide
  obtain ⟨⟨i, hfirst, hstopped⟩, hagain⟩ := (failed_build_stops c [2, 0, 1] hkeyed).2 hresolved
  have honly : ∀ i, c.isResolved i = true → i = 0 := by decide
  obtain rfl := honly i hfirst.resolved
  obtain ⟨-, callees, hmain, -⟩ := hstopped.before 1 (by decide) (by decide)
  refine ⟨hkeyed, hresolved, hstopped.result, isResolved_iff.2 ⟨callees, hmain⟩,
    hstopped.others 0 (.inr (by decide)), hstopped.others 2 (.inr (by decide)), by cbv, ?_⟩
  exact hagain after (.refl after)

end CallGraph
end StackDepth
