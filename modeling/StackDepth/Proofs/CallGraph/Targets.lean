import Mathlib
import StackDepth.Proofs.CallGraph.Resolution

/-!
# Every call target is accounted for

A call target of a routine either is where a routine of the table starts, and then that routine
becomes a callee, or it is reported as missing. Nothing is lost and nothing is counted twice: the
callees and the warnings of a routine are together as many as its call targets
(`length_targetsIn_add_missing`).

The routines are resolved in the order of their addresses and the targets of each in ascending
order, so that the warnings come in the order of the pairs of routine and target. In which order
the table was given does not matter, since routines that start at different addresses can be
sorted in one way only (`sortByStart_of_perm`).
-/
namespace StackDepth

variable {n : Nat}

namespace Catalogue

variable {c : Catalogue n} {table : List (Fin n)} {address : Int}

theorem byStart_eq_none_iff : c.byStart table address = none ↔ ∀ j ∈ table, c.start j ≠ address := by
  simp [byStart]

/-- In a keyed table an address leads to the routine that starts there. -/
theorem Keyed.byStart_eq_some_iff (h : c.Keyed table) {i : Fin n} :
    c.byStart table address = some i ↔ i ∈ table ∧ c.start i = address := by
  refine ⟨byStart_some, ?_⟩
  rintro ⟨hi, hstart⟩
  cases hfound : c.byStart table address with
  | none => exact absurd hstart (byStart_eq_none_iff.1 hfound i hi)
  | some j =>
    obtain ⟨hj, hjstart⟩ := byStart_some hfound
    rw [h.start_inj hj hi (hjstart.trans hstart.symm)]

theorem Keyed.nodup (h : c.Keyed table) : table.Nodup := List.Nodup.of_map _ h

theorem Keyed.of_perm {table' : List (Fin n)} (h : c.Keyed table) (hperm : table'.Perm table) :
    c.Keyed table' :=
  (hperm.map c.start).nodup_iff.2 h

end Catalogue

namespace CallGraph

open Catalogue

/-! ### The targets of one routine -/

def missingWarning (c : Catalogue n) (i : Fin n) (address : Int) : Diagnostic where
  severity := .warning
  code := missingFunctionCode
  message := s!"Missing function {Text.Numeral.writeHex address} in {(c.routine i).name}"

/-- The call targets of a routine at which no routine of the table starts. -/
def missingAddresses (c : Catalogue n) (table : List (Fin n)) (i : Fin n) : List Int :=
  (c.routine i).callTargets.toList.filter fun address => (c.byStart table address).isNone

variable {c : Catalogue n} {table : List (Fin n)}

theorem missingTargets_eq (c : Catalogue n) (table : List (Fin n)) (i : Fin n) :
    missingTargets c table i = (missingAddresses c table i).map (missingWarning c i) := rfl

theorem missingTargets_congr {d : Catalogue n} (h : d.routines = c.routines)
    (table : List (Fin n)) (i : Fin n) : missingTargets d table i = missingTargets c table i := by
  rw [missingTargets, missingTargets, byStart_congr h, routine, routine, h]

theorem mem_targetsIn_iff (h : c.Keyed table) {i j : Fin n} :
    j ∈ targetsIn c table i ↔ j ∈ table ∧ c.start j ∈ (c.routine i).callTargets := by
  rw [targetsIn, List.mem_filterMap, AddressSet.mem_def]
  constructor
  · rintro ⟨address, haddress, hj⟩
    obtain ⟨hmem, rfl⟩ := byStart_some hj
    exact ⟨hmem, haddress⟩
  · rintro ⟨hmem, haddress⟩
    exact ⟨c.start j, haddress, h.byStart_eq_some_iff.2 ⟨hmem, rfl⟩⟩

theorem mem_missingAddresses_iff {i : Fin n} {address : Int} :
    address ∈ missingAddresses c table i ↔
      address ∈ (c.routine i).callTargets ∧ ∀ j ∈ table, c.start j ≠ address := by
  rw [missingAddresses, List.mem_filter, Option.isNone_iff_eq_none, byStart_eq_none_iff,
    AddressSet.mem_def]

theorem pairwise_missingAddresses (c : Catalogue n) (table : List (Fin n)) (i : Fin n) :
    (missingAddresses c table i).Pairwise (· < ·) :=
  (c.routine i).callTargets.ascending.filter _

/-- Every target is either resolved or missing. -/
theorem length_targetsIn_add_missing (c : Catalogue n) (table : List (Fin n)) (i : Fin n) :
    (targetsIn c table i).length + (missingAddresses c table i).length =
      (c.routine i).callTargets.size := by
  rw [targetsIn, missingAddresses, AddressSet.size]
  induction (c.routine i).callTargets.toList with
  | nil => rfl
  | cons address rest ih =>
    cases hfound : c.byStart table address with
    | none =>
      rw [List.filterMap_cons_none hfound, List.filter_cons_of_pos (by rw [hfound]; rfl),
        List.length_cons, List.length_cons]
      omega
    | some j =>
      rw [List.filterMap_cons_some hfound, List.filter_cons_of_neg (by rw [hfound]; simp),
        List.length_cons, List.length_cons]
      omega

/-! ### All routines -/

/-- Routines without callees are all resolved, and their warnings follow one another. -/
theorem resolveAll_of_unresolved (table : List (Fin n)) {rest : List (Fin n)}
    (hdistinct : rest.Nodup) (h : ∀ i ∈ rest, c.callees? i = none) :
    (resolveAll table c rest).result = .ok () ∧
      (resolveAll table c rest).diagnostics = rest.flatMap (missingTargets c table) := by
  induction rest generalizing c with
  | nil => exact ⟨rfl, rfl⟩
  | cons i rest ih =>
    obtain ⟨hi, hdistinct⟩ := List.nodup_cons.1 hdistinct
    have hnone : c.callees? i = none := h i List.mem_cons_self
    have hresolve : c.resolve i (targetsIn c table i) =
        .ok { c with resolved := c.resolved.set i (some (targetsIn c table i)) i.isLt } := by
      rw [resolve, hnone]
    have hrest : ∀ j ∈ rest, callees?
        { c with resolved := c.resolved.set i (some (targetsIn c table i)) i.isLt } j = none := by
      intro j hj
      have hne : j ≠ i := fun he => hi (he ▸ hj)
      rw [callees?_set, if_neg hne]
      exact h j (List.mem_cons_of_mem _ hj)
    obtain ⟨hresult, hdiagnostics⟩ := ih hdistinct hrest
    rw [resolveAll]
    simp only [hresolve]
    refine ⟨hresult, ?_⟩
    rw [hdiagnostics, List.flatMap_cons]
    exact congrArg _ (List.flatMap_congr fun j _ => missingTargets_congr rfl table j)

/-- A keyed table has one order only. -/
theorem sortByStart_of_perm (h : c.Keyed table) {table' : List (Fin n)}
    (hperm : table'.Perm table) : sortByStart c table' = sortByStart c table := by
  have hsorted : (sortByStart c table').Perm (sortByStart c table) :=
    (List.mergeSort_perm table' _).trans (hperm.trans (List.mergeSort_perm table _).symm)
  refine hsorted.eq_of_pairwise ?_ (pairwise_sortByStart (h.of_perm hperm)) (pairwise_sortByStart h)
  intro i j _ _ hij hji
  omega

theorem build_of_perm (h : c.Keyed table) {table' : List (Fin n)} (hperm : table'.Perm table) :
    build c table' = build c table := by
  rw [build, build, sortByStart_of_perm h hperm]

theorem build_of_unresolved (hkeyed : c.Keyed table) (h : ∀ i ∈ table, c.callees? i = none) :
    ∃ g, (build c table).result = .ok g ∧ (build c table).diagnostics =
      (sortByStart c table).flatMap (missingTargets c (sortByStart c table)) := by
  have hdistinct : (sortByStart c table).Nodup := (keyed_sortByStart hkeyed).nodup
  obtain ⟨hresult, hdiagnostics⟩ := resolveAll_of_unresolved (sortByStart c table) hdistinct
    fun i hi => h i (mem_sortByStart.1 hi)
  exact ⟨_, by rw [build]; simp only [hresult]; rfl, hdiagnostics⟩

/-! ### The warnings -/

/-- A call of a routine to an address. -/
abbrev Call (n : Nat) := Fin n × Int

/-- Calls in the order of their routines, and those of one routine in the order of their targets. -/
def Call.Before (c : Catalogue n) (a b : Call n) : Prop :=
  c.start a.1 < c.start b.1 ∨ c.start a.1 = c.start b.1 ∧ a.2 < b.2

/-- The calls of routines to addresses at which none of them starts. -/
def missingCalls (c : Catalogue n) (order : List (Fin n)) : List (Call n) :=
  order.flatMap fun i => (missingAddresses c order i).map (i, ·)

theorem flatMap_missingTargets (c : Catalogue n) (order : List (Fin n)) :
    order.flatMap (missingTargets c order) =
      (missingCalls c order).map fun call => missingWarning c call.1 call.2 := by
  simp only [missingCalls, List.map_flatMap, List.map_map]
  rfl

theorem mem_missingCalls_iff {order : List (Fin n)} {call : Call n} :
    call ∈ missingCalls c order ↔ call.1 ∈ order ∧ call.2 ∈ (c.routine call.1).callTargets ∧
      ∀ j ∈ order, c.start j ≠ call.2 := by
  rw [missingCalls, List.mem_flatMap]
  constructor
  · rintro ⟨i, hi, hcall⟩
    obtain ⟨address, haddress, rfl⟩ := List.mem_map.1 hcall
    exact ⟨hi, mem_missingAddresses_iff.1 haddress⟩
  · rintro ⟨hi, hmissing⟩
    exact ⟨call.1, hi, List.mem_map.2 ⟨call.2, mem_missingAddresses_iff.2 hmissing, rfl⟩⟩

theorem pairwise_missingCalls {order : List (Fin n)}
    (h : order.Pairwise fun i j => c.start i < c.start j) :
    (missingCalls c order).Pairwise (Call.Before c) := by
  rw [missingCalls, List.pairwise_flatMap]
  constructor
  · intro i _
    rw [List.pairwise_map]
    exact (pairwise_missingAddresses c order i).imp fun hlt => .inr ⟨rfl, hlt⟩
  · refine h.imp ?_
    intro i j hij a ha b hb
    obtain ⟨_, -, rfl⟩ := List.mem_map.1 ha
    obtain ⟨_, -, rfl⟩ := List.mem_map.1 hb
    exact .inl hij

/-! ### The sums -/

theorem length_flatMap_targetsIn_add (c : Catalogue n) (table order : List (Fin n)) :
    (order.flatMap (targetsIn c table)).length +
        (order.flatMap (missingTargets c table)).length =
      (order.map fun i => (c.routine i).callTargets.size).sum := by
  induction order with
  | nil => rfl
  | cons i rest ih =>
    have hone := length_targetsIn_add_missing c table i
    rw [List.flatMap_cons, List.flatMap_cons, List.length_append, List.length_append,
      List.map_cons, List.sum_cons, missingTargets_eq, List.length_map]
    omega

theorem byCode_missingTargets (c : Catalogue n) (table order : List (Fin n)) :
    Log.byCode (order.flatMap (missingTargets c table)) missingFunctionCode =
      order.flatMap (missingTargets c table) := by
  rw [Log.byCode, List.filter_eq_self]
  intro d hd
  obtain ⟨i, -, hd⟩ := List.mem_flatMap.1 hd
  obtain ⟨address, -, rfl⟩ := List.mem_map.1 hd
  exact beq_self_eq_true _

/-- Edges and missing targets are together all call targets, if the log had no warnings about
missing targets before. -/
theorem edges_add_missing {g : CallGraph n} (hkeyed : c.Keyed table)
    (hunresolved : ∀ i ∈ table, c.callees? i = none) (hbuild : (build c table).result = .ok g)
    {log : Log} (hlog : log.byCode missingFunctionCode = []) :
    (g.statistics (build c table).catalogue (log ++ (build c table).diagnostics)).edges +
        (g.statistics (build c table).catalogue (log ++ (build c table).diagnostics)).missingTargets =
      (table.map fun i => (c.routine i).callTargets.size).sum := by
  obtain ⟨-, horder, hcallees⟩ := build_ok hbuild
  obtain ⟨-, -, hdiagnostics⟩ := build_of_unresolved hkeyed hunresolved
  have hedges : g.order.toList.flatMap (calleesOf (build c table).catalogue) =
      (sortByStart c table).flatMap (targetsIn c (sortByStart c table)) := by
    rw [horder]
    refine List.flatMap_congr fun i hi => ?_
    rw [calleesOf, hcallees i (mem_sortByStart.1 hi), Option.getD_some]
  have hmissing : Log.byCode (log ++ (build c table).diagnostics) missingFunctionCode =
      (sortByStart c table).flatMap (missingTargets c (sortByStart c table)) := by
    rw [hdiagnostics, Log.byCode_append, hlog, List.nil_append, byCode_missingTargets]
  have hsum := ((List.mergeSort_perm table fun i j => decide (c.start i ≤ c.start j)).map
    fun i => (c.routine i).callTargets.size).sum_eq
  simp only [statistics, hedges, hmissing]
  rw [length_flatMap_targetsIn_add]
  exact hsum

/-- The routines of a table without callees can always be resolved. Each gets as callees exactly
the routines of the table that start at its call targets, in ascending order, and each of its
other targets is reported once, in the order of routines and targets. The order of the table makes
no difference, and if nothing was reported missing before, edges and missing targets add up to all
call targets. -/
theorem build_resolves_exactly (c : Catalogue n) (table : List (Fin n)) (hkeyed : c.Keyed table)
    (hunresolved : ∀ i ∈ table, c.callees? i = none) :
    ∃ g, (build c table).result = .ok g ∧
      (build c table).catalogue.routines = c.routines ∧
      (∀ i ∈ table, ∃ callees, (build c table).catalogue.callees? i = some callees ∧
        callees.Pairwise (fun j k => c.start j < c.start k) ∧
        ∀ j, j ∈ callees ↔ j ∈ table ∧ c.start j ∈ (c.routine i).callTargets) ∧
      (∃ missing : List (Call n),
        (build c table).diagnostics = (missing.map fun call => missingWarning c call.1 call.2) ∧
        missing.Pairwise (Call.Before c) ∧
        ∀ call, call ∈ missing ↔ call.1 ∈ table ∧ call.2 ∈ (c.routine call.1).callTargets ∧
          ∀ j ∈ table, c.start j ≠ call.2) ∧
      (∀ table' : List (Fin n), table'.Perm table → build c table' = build c table) ∧
      ∀ log : Log, log.byCode missingFunctionCode = [] →
        let after := g.statistics (build c table).catalogue (log ++ (build c table).diagnostics)
        after.edges + after.missingTargets =
          (table.map fun i => (c.routine i).callTargets.size).sum := by
  obtain ⟨g, hresult, hdiagnostics⟩ := build_of_unresolved hkeyed hunresolved
  obtain ⟨hroutines, -, hcallees⟩ := build_ok hresult
  refine ⟨g, hresult, hroutines, ?_, ⟨missingCalls c (sortByStart c table), ?_, ?_, ?_⟩, ?_, ?_⟩
  · intro i hi
    refine ⟨_, hcallees i hi, pairwise_targetsIn c _ i, fun j => ?_⟩
    rw [mem_targetsIn_iff (keyed_sortByStart hkeyed), mem_sortByStart]
  · rw [hdiagnostics, flatMap_missingTargets]
  · exact pairwise_missingCalls (pairwise_sortByStart hkeyed)
  · intro call
    rw [mem_missingCalls_iff, mem_sortByStart]
    simp only [mem_sortByStart]
  · exact fun table' hperm => build_of_perm hkeyed hperm
  · exact fun log hlog => edges_add_missing hkeyed hunresolved hresult hlog

/-- Three routines in no order, two of which call addresses where no routine starts. -/
def crossCalls : Catalogue 3 := Catalogue.ofList
  [{ name := "work", start := 0x20, callTargets := .ofList [0x20, 0x10, 0x99] },
   { name := "main", start := 0x10, callTargets := .ofList [0x50, 0x30, 0x20] },
   { name := "leaf", start := 0x30 }]

theorem build_resolves_exactly_crossCalls :
    crossCalls.Keyed [2, 0, 1] ∧ (∀ i ∈ [2, 0, 1], crossCalls.callees? i = none) ∧
      (∃ g, (build crossCalls [2, 0, 1]).result = .ok g ∧
        (g.statistics (build crossCalls [2, 0, 1]).catalogue
            (build crossCalls [2, 0, 1]).diagnostics).edges +
          (g.statistics (build crossCalls [2, 0, 1]).catalogue
            (build crossCalls [2, 0, 1]).diagnostics).missingTargets = 6) ∧
      build crossCalls [0, 1, 2] = build crossCalls [2, 0, 1] ∧
      (build crossCalls [2, 0, 1]).diagnostics =
        [missingWarning crossCalls 1 0x50, missingWarning crossCalls 0 0x99] := by
  have hkeyed : crossCalls.Keyed [2, 0, 1] := by
    unfold Catalogue.Keyed
    decide
  have hunresolved : ∀ i ∈ [2, 0, 1], crossCalls.callees? i = none := by decide
  obtain ⟨g, hresult, -, -, -, hperm, hsum⟩ :=
    build_resolves_exactly crossCalls [2, 0, 1] hkeyed hunresolved
  refine ⟨hkeyed, hunresolved, ⟨g, hresult, ?_⟩, hperm [0, 1, 2] (by decide), by cbv⟩
  rw [← List.nil_append (build crossCalls [2, 0, 1]).diagnostics, hsum [] rfl]
  decide

end CallGraph
end StackDepth
