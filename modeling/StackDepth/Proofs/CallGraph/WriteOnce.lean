import Mathlib
import StackDepth.Proofs.CallGraph.Callers

/-!
# Callees are given once

The routines of a catalogue are shared: several graphs may be built over some of them, and callees
may be given to a routine by hand. Nothing of that can spoil a graph that was built before. Whatever
is asked for, and whether or not it succeeds, the catalogue is only extended (`Catalogue.Extends`):
its routines stay, and so do all callees that are known. A graph depends on the catalogue through
the callees of its own routines, which are known from its building on, so that it stays consistent
with every extension.

A build that fails has given callees to some routines. It extends the catalogue all the same.
-/
namespace StackDepth

variable {n : Nat}

namespace Catalogue

/-- The second catalogue has the same routines, and it agrees with the first one on all callees
that are known there. -/
structure Extends (c d : Catalogue n) : Prop where
  routines : d.routines = c.routines
  callees : ∀ i callees, c.callees? i = some callees → d.callees? i = some callees

namespace Extends

variable {c d e : Catalogue n}

theorem refl (c : Catalogue n) : c.Extends c := ⟨rfl, fun _ _ h => h⟩

theorem trans (h : c.Extends d) (h' : d.Extends e) : c.Extends e :=
  ⟨h'.routines.trans h.routines, fun i callees hi => h'.callees i callees (h.callees i callees hi)⟩

theorem start (h : c.Extends d) : d.start = c.start := start_congr h.routines

theorem keyed (h : c.Extends d) {table : List (Fin n)} (hkeyed : c.Keyed table) :
    d.Keyed table := by
  rw [Keyed, h.start]
  exact hkeyed

theorem resolve {i : Fin n} {callees : List (Fin n)} (h : c.resolve i callees = .ok d) :
    c.Extends d := by
  obtain ⟨hnone, rfl⟩ := resolve_ok h
  refine ⟨rfl, fun j known hj => ?_⟩
  have hne : j ≠ i := by
    rintro rfl
    rw [hnone] at hj
    cases hj
  rw [callees?_set, if_neg hne, hj]

end Extends
end Catalogue

namespace CallGraph

open Catalogue

theorem extends_resolveAll (table : List (Fin n)) (c : Catalogue n) (rest : List (Fin n)) :
    c.Extends (resolveAll table c rest).catalogue := by
  induction rest generalizing c with
  | nil => exact .refl c
  | cons i rest ih =>
    rw [resolveAll]
    cases hresolve : c.resolve i (targetsIn c table i) with
    | error e => exact .refl c
    | ok d => exact (Extends.resolve hresolve).trans (ih d)

theorem extends_build (c : Catalogue n) (table : List (Fin n)) :
    c.Extends (build c table).catalogue :=
  extends_resolveAll (sortByStart c table) c (sortByStart c table)

/-! ### Graphs and the catalogue they stand on -/

/-- The graph agrees with the catalogue: the callees of its routines are known and belong to it, its
callers are those that the callees give, and its roots are its routines without callers. -/
structure Consistent (c : Catalogue n) (g : CallGraph n) : Prop where
  closed : ∀ i ∈ g.order.toList, ∃ callees, c.callees i = .ok callees ∧
    ∀ j ∈ callees, j ∈ g.order.toList
  dual : ∀ i ∈ g.order.toList, ∀ j ∈ g.order.toList,
    j ∈ calleesOf c i ↔ i ∈ g.callersAt c (c.start j)
  roots : ∀ i, i ∈ g.roots ↔ i ∈ g.order.toList ∧ g.callersAt c (c.start i) = []

theorem consistent_build {c : Catalogue n} {table : List (Fin n)} {g : CallGraph n}
    (hkeyed : c.Keyed table) (h : (build c table).result = .ok g) :
    g.Consistent (build c table).catalogue where
  closed i hi := by
    obtain ⟨callees, hcallees, -, hclosed⟩ := (build_linked hkeyed h).closed i hi
    exact ⟨callees, by rw [Catalogue.callees, hcallees], hclosed⟩
  dual i hi j hj := by
    rw [callersAt_start hkeyed h hj, mem_callers_iff hkeyed h]
    exact (and_iff_right hi).symm
  roots i := by
    rw [mem_roots_iff hkeyed h]
    refine and_congr_right fun hi => ?_
    rw [callersAt_start hkeyed h hi, callers_build hkeyed h, List.filter_eq_nil_iff]
    simp only [decide_eq_true_eq]

theorem calleesOf_of_extends {c d : Catalogue n} (h : c.Extends d) {i : Fin n}
    {callees : List (Fin n)} (hi : c.callees i = .ok callees) :
    d.callees i = .ok callees ∧ calleesOf d i = calleesOf c i := by
  cases hknown : c.callees? i with
  | none =>
    rw [Catalogue.callees, hknown] at hi
    cases hi
  | some known =>
    rw [Catalogue.callees, hknown] at hi
    cases hi
    have hkept := h.callees i callees hknown
    rw [Catalogue.callees, hkept, calleesOf, calleesOf, hkept, hknown]
    exact ⟨rfl, rfl⟩

theorem Consistent.extend {c d : Catalogue n} {g : CallGraph n} (h : g.Consistent c)
    (hextends : c.Extends d) : g.Consistent d := by
  have hcallers : g.callersAt d = g.callersAt c := by
    funext address
    rw [callersAt, callersAt, at?, at?, byStart_congr hextends.routines]
  refine ⟨fun i hi => ?_, fun i hi j hj => ?_, fun i => ?_⟩
  · obtain ⟨callees, hcallees, hclosed⟩ := h.closed i hi
    exact ⟨callees, (calleesOf_of_extends hextends hcallees).1, hclosed⟩
  · obtain ⟨callees, hcallees, -⟩ := h.closed i hi
    rw [(calleesOf_of_extends hextends hcallees).2, hcallers, hextends.start]
    exact h.dual i hi j hj
  · rw [hcallers, hextends.start]
    exact h.roots i

end CallGraph

/-! ### Sequences of requests -/

/-- What can be asked for: callees for a routine, or a graph over a table. -/
inductive GraphRequest (n : Nat) where
  | resolve (i : Fin n) (callees : List (Fin n))
  | build (table : List (Fin n))

/-- A graph is asked for over a keyed table only. -/
def GraphRequest.Keyed (c : Catalogue n) : GraphRequest n → Prop
  | resolve _ _ => True
  | build table => c.Keyed table

instance (c : Catalogue n) : DecidablePred (GraphRequest.Keyed c)
  | .resolve _ _ => inferInstanceAs (Decidable True)
  | .build table => inferInstanceAs (Decidable (table.map c.start).Nodup)

/-- The catalogue as the requests so far leave it, and the graphs that were returned. -/
structure Session (n : Nat) where
  catalogue : Catalogue n
  graphs : List (CallGraph n) := []

namespace Session

/-- Does what is asked for, as far as it succeeds. -/
def perform (s : Session n) : GraphRequest n → Session n
  | .resolve i callees =>
    match s.catalogue.resolve i callees with
    | .error _ => s
    | .ok c => { s with catalogue := c }
  | .build table =>
    let attempt := CallGraph.build s.catalogue table
    { catalogue := attempt.catalogue, graphs := s.graphs ++ attempt.result.toOption.toList }

def run (s : Session n) (requests : List (GraphRequest n)) : Session n := requests.foldl perform s

/-- All graphs that were returned are consistent with the catalogue. -/
def Sound (s : Session n) : Prop := ∀ g ∈ s.graphs, g.Consistent s.catalogue

variable {s : Session n} {request : GraphRequest n} {requests : List (GraphRequest n)}

theorem extends_perform (s : Session n) (request : GraphRequest n) :
    s.catalogue.Extends (s.perform request).catalogue := by
  cases request with
  | resolve i callees =>
    rw [perform]
    cases hresolve : s.catalogue.resolve i callees with
    | error e => exact .refl _
    | ok c => exact .resolve hresolve
  | build table => exact CallGraph.extends_build s.catalogue table

theorem mem_graphs_perform {g : CallGraph n} :
    g ∈ (s.perform request).graphs ↔ g ∈ s.graphs ∨
      ∃ table, request = .build table ∧ (CallGraph.build s.catalogue table).result = .ok g := by
  cases request with
  | resolve i callees =>
    rw [perform]
    cases s.catalogue.resolve i callees with
    | error e => simp
    | ok c => simp
  | build table =>
    simp only [perform, List.mem_append, GraphRequest.build.injEq, exists_eq_left']
    cases (CallGraph.build s.catalogue table).result with
    | error e => simp [Except.toOption]
    | ok g' => simp [Except.toOption, eq_comm]

theorem Sound.perform (h : s.Sound) (hkeyed : request.Keyed s.catalogue) :
    (s.perform request).Sound := by
  intro g hg
  rcases mem_graphs_perform.1 hg with hg | ⟨table, rfl, hbuild⟩
  · exact (h g hg).extend (s.extends_perform request)
  · exact CallGraph.consistent_build hkeyed hbuild

theorem extends_run (s : Session n) (requests : List (GraphRequest n)) :
    s.catalogue.Extends (s.run requests).catalogue := by
  induction requests generalizing s with
  | nil => exact .refl _
  | cons request rest ih => exact (s.extends_perform request).trans (ih (s.perform request))

theorem mem_graphs_run {g : CallGraph n} (hg : g ∈ s.graphs) : g ∈ (s.run requests).graphs := by
  induction requests generalizing s with
  | nil => exact hg
  | cons request rest ih => exact ih (mem_graphs_perform.2 (.inl hg))

theorem Sound.run (h : s.Sound) (hkeyed : ∀ request ∈ requests, request.Keyed s.catalogue) :
    (s.run requests).Sound := by
  induction requests generalizing s with
  | nil => exact h
  | cons request rest ih =>
    obtain ⟨hfirst, hrest⟩ := List.forall_mem_cons.1 hkeyed
    refine ih (h.perform hfirst) fun later hlater => ?_
    cases later with
    | resolve i callees => trivial
    | build table => exact (s.extends_perform request).keyed (hrest _ hlater)

/-- The first callees that a routine is given are those that it keeps. -/
theorem callees?_perform_resolve (s : Session n) (i : Fin n) (callees : List (Fin n)) :
    (s.perform (.resolve i callees)).catalogue.callees? i =
      some ((s.catalogue.callees? i).getD callees) := by
  rw [perform, Catalogue.resolve]
  cases hknown : s.catalogue.callees? i with
  | some known => exact hknown
  | none =>
    rw [Option.getD_none]
    exact (Catalogue.callees?_set s.catalogue i i callees).trans (if_pos rfl)

end Session

open CallGraph (build)

/-- In any sequence of requests, whether they succeed or fail, a routine keeps the first callees
that it is given, and every graph that was returned on the way is consistent with the catalogue at
the end. -/
theorem callees_written_once (c : Catalogue n) (first later : List (GraphRequest n))
    (hkeyed : ∀ request ∈ first ++ later, request.Keyed c) :
    let before := Session.run ⟨c, []⟩ first
    let after := before.run later
    (∀ i callees, (before.perform (.resolve i callees)).catalogue.callees? i =
      some ((before.catalogue.callees? i).getD callees)) ∧
    (∀ i callees, before.catalogue.callees? i = some callees →
      after.catalogue.callees? i = some callees) ∧
    ∀ g ∈ before.graphs, g ∈ after.graphs ∧ g.Consistent after.catalogue := by
  intro before after
  have hrun : after = Session.run ⟨c, []⟩ (first ++ later) := (List.foldl_append ..).symm
  have hempty : Session.Sound ⟨c, []⟩ := by
    intro g hg
    cases hg
  have hsound : after.Sound := by
    rw [hrun]
    exact hempty.run hkeyed
  refine ⟨before.callees?_perform_resolve, (before.extends_run later).callees, ?_⟩
  intro g hg
  have hkept : g ∈ after.graphs := Session.mem_graphs_run hg
  exact ⟨hkept, hsound g hkept⟩

open CallGraph (sharedCallee)

/-- A graph over two routines; then callees by hand for a third one, and for it once more, which
fails; and a build that gives callees to the fourth before it fails at a routine of the graph. -/
theorem callees_written_once_sharedCallee :
    let later : List (GraphRequest 4) := [.resolve 1 [2, 2], .resolve 1 [], .build [2, 0]]
    let after := (Session.run ⟨sharedCallee, []⟩ [.build [0, 3]]).run later
    (∀ request ∈ [.build [0, 3]] ++ later, request.Keyed sharedCallee) ∧
      (List.finRange 4).map after.catalogue.callees? =
        [some [0], some [2, 2], some [0], some []] ∧
      ∃ g, after.graphs = [g] ∧ g.order.toList = [0, 3] ∧ g.Consistent after.catalogue := by
  intro later after
  have hkeyed : ∀ request ∈ [.build [0, 3]] ++ later, request.Keyed sharedCallee := by
    decide
  have hgraphs : (Session.run ⟨sharedCallee, []⟩ [.build [0, 3]]).graphs.map (·.order.toList) =
      [[0, 3]] := by cbv
  have hafter : after.graphs = (Session.run ⟨sharedCallee, []⟩ [.build [0, 3]]).graphs := by cbv
  obtain ⟨g, hg, horder⟩ := List.map_eq_singleton_iff.1 hgraphs
  obtain ⟨-, -, hconsistent⟩ := callees_written_once sharedCallee [.build [0, 3]] later hkeyed
  refine ⟨hkeyed, by cbv, g, hafter.trans hg, horder, ?_⟩
  exact (hconsistent g (by rw [hg]; exact List.mem_singleton_self g)).2

end StackDepth
