import Mathlib
import StackDepth.Dump.Trace
import StackDepth.Proofs.Analysis.Program
import StackDepth.Proofs.Analysis.Visits
import StackDepth.Proofs.CallGraph.Targets

/-!
# Where diagnostics point

A pass counts the lines that it goes through. For the full pass these are the lines of the
listing, and its diagnostics point into the listing. The bounded passes of a trace go through the
lines of one routine, and add to the same log diagnostics that count from the label of that
routine: they point into its lines. In the listing the line stands further down by the number of
lines before the label, so the diagnostic points there by accident only, unless the routine is the
first thing in the listing.
-/
namespace StackDepth

namespace Diagnostic

/-- If the diagnostic is tied to a line, the lines have that line at its index. -/
def PointsInto (d : Diagnostic) (lines : List String) : Prop :=
  ∀ i, d.lineIndex = some i → 0 ≤ i ∧ i < lines.length ∧ lines[i.toNat]? = d.lineText

/-- The diagnostic is tied to the line at the index. -/
structure At (d : Diagnostic) (lines : List String) (k : Nat) : Prop where
  index : d.lineIndex = some (k : Int)
  lt_length : k < lines.length
  text : lines[k]? = d.lineText

variable {d : Diagnostic} {lines : List String} {k : Nat}

theorem pointsInto_of_none (h : d.lineIndex = none) (lines : List String) :
    d.PointsInto lines := by
  intro i hi
  rw [h] at hi
  cases hi

theorem At.pointsInto (h : d.At lines k) : d.PointsInto lines := by
  intro i hi
  rw [h.index, Option.some.injEq] at hi
  have hlt := h.lt_length
  refine ⟨by omega, by omega, ?_⟩
  rw [← hi, Int.toNat_natCast, h.text]

/-- A diagnostic that is tied to a line of some lines points into others if they have the same
line at the index. -/
theorem At.pointsInto_iff (h : d.At lines k) (others : List String) :
    d.PointsInto others ↔ others[k]? = d.lineText := by
  constructor
  · intro hpoints
    exact (hpoints k h.index).2.2
  · intro htext i hi
    rw [h.index, Option.some.injEq] at hi
    have hlt : k < others.length := by
      rw [← h.text, List.getElem?_eq_getElem h.lt_length] at htext
      exact (List.getElem?_eq_some_iff.1 htext).1
    refine ⟨by omega, by omega, ?_⟩
    rw [← hi, Int.toNat_natCast, htext]

end Diagnostic

/-! ### The diagnostics of a pass -/

namespace PassState

variable {config : Config} {mode : PassMode}

/-- The pass has come through the lines `passed`, and what it has reported is about them and the
lines still to come. -/
structure Places (s : PassState) (passed rest : List String) : Prop where
  index : s.index = passed.length
  diagnostics : ∀ d ∈ s.diagnostics, ∃ k, d.At (passed ++ rest) k

theorem Places.step {s : PassState} {passed rest : List String} {line : String}
    (h : s.Places passed (line :: rest)) :
    (s.step config mode line rest).Places (passed ++ [line]) rest := by
  constructor
  · rw [PassState.step, h.index, List.length_append, List.length_singleton]
  · intro d hd
    rw [List.append_assoc, List.singleton_append]
    rcases List.mem_append.1 hd with hd | hd
    · exact h.diagnostics d hd
    · obtain ⟨hindex, htext⟩ := mem_diagnose hd
      refine ⟨passed.length, ?_, ?_, ?_⟩
      · rw [hindex, h.index]
      · simp
      · simp [htext]

theorem Places.run {s : PassState} {passed rest : List String} (h : s.Places passed rest) :
    ∀ d ∈ (s.run config mode rest).diagnostics, ∃ k, d.At (passed ++ rest) k := by
  induction rest generalizing s passed with
  | nil => exact h.diagnostics
  | cons line rest ih =>
    rw [PassState.run]
    split
    · exact h.diagnostics
    · rw [List.append_cons]
      exact ih h.step

/-- A pass reports lines that it goes through, each at the place where it comes to it. -/
theorem at_of_mem_run {lines : List String} {d : Diagnostic}
    (h : d ∈ (run config mode {} lines).diagnostics) : ∃ k, d.At lines k := by
  have hstart : Places {} [] lines := ⟨rfl, by simp⟩
  exact hstart.run d h

end PassState

/-! ### Routines within the listing -/

/-- The lines of a routine stand in the listing one after another, from its label on. -/
theorem exists_lineStart {config : Config} {listing : List String} {f : Routine}
    (h : f ∈ (analyze config listing).routines) :
    ∃ start : Nat, f.lineStart = start ∧ f.lines.toList <+: listing.drop start := by
  obtain ⟨v, hv, r, hopens, rfl⟩ :=
    PassState.exists_visit_of_mem_opened (mem_opened_of_mem_analyze h)
  obtain ⟨⟨address, name⟩, -, rfl⟩ := Option.map_eq_some_iff.1 hopens
  obtain ⟨k, hindex, hdrop⟩ := PassState.drop_of_mem_visits hv
  refine ⟨v.state.index, by rw [Routine.follow_lineStart], ?_⟩
  have hk : v.state.index = k := by rw [hindex]; exact Nat.zero_add k
  rw [Routine.follow_full_lines, hk, hdrop]
  exact (List.prefix_cons_inj v.line).2 (isPrefix_untilLabel v.following)

/-! ### The log of a program and its traces -/

namespace Program

variable {config : Config} {listing : List String}

/-- Every listing gives a program, and the warnings about its call targets are tied to no line. -/
theorem exists_ofListing (config : Config) (listing : List String) :
    ∃ p, ofListing config listing = .ok p ∧ p.analysis = analyze config listing ∧
      ∀ d ∈ p.missing, d.lineIndex = none := by
  have hkeyed : (Catalogue.ofList (analyze config listing).routines).Keyed (List.finRange _) :=
    Catalogue.keyed_ofList (nodup_firstByStart _)
  obtain ⟨g, hresult, hdiagnostics⟩ := CallGraph.build_of_unresolved hkeyed fun i _ => by
    simp [Catalogue.callees?, Catalogue.ofList]
  refine ⟨_, by simp only [ofListing, hresult]; rfl, rfl, ?_⟩
  intro d hd
  rw [hdiagnostics, List.mem_flatMap] at hd
  obtain ⟨i, -, hd⟩ := hd
  obtain ⟨address, -, rfl⟩ := List.mem_map.1 hd
  rfl

end Program

namespace Dump

variable {n : Nat} {c : Catalogue n} {g : CallGraph n} {config : Config} {d : Diagnostic}

/-- What is noted about a frame is tied to no line, or comes from the bounded pass over the routine
that holds the return address. -/
theorem mem_frameAt_diagnostics {address : Int}
    (h : d ∈ (frameAt c g config address).diagnostics) :
    d.lineIndex = none ∨ ∃ i, g.containing c address = some i ∧
      d ∈ (analyzePart config (c.routine i) address).diagnostics := by
  unfold frameAt at h
  cases hcontaining : g.containing c address with
  | none =>
    simp only [hcontaining, List.mem_singleton] at h
    rw [h]
    exact .inl rfl
  | some i =>
    simp only [hcontaining] at h
    split at h
    · exact .inr ⟨i, rfl, h⟩
    · split at h
      · exact .inr ⟨i, rfl, h⟩
      · rcases List.mem_append.1 h with h | h
        · exact .inr ⟨i, rfl, h⟩
        · rw [List.mem_singleton.1 h]
          exact .inl rfl

theorem mem_framesFrom_diagnostics {dump : Array UInt8} {steps : Nat} {position : Int}
    (h : d ∈ (framesFrom c g config dump steps position).diagnostics) :
    ∃ address, d ∈ (frameAt c g config address).diagnostics := by
  induction steps generalizing position with
  | zero => cases h
  | succ steps ih =>
    rw [framesFrom] at h
    split at h
    · cases h
    · split at h
      · cases h
      · rename_i address _
        simp only at h
        split at h
        · exact ⟨address, h⟩
        · rcases List.mem_append.1 h with h | h
          · exact ⟨address, h⟩
          · exact ih h

theorem mem_trace_diagnostics {dump : List UInt8}
    (h : d ∈ (trace c g config dump).diagnostics) :
    d.lineIndex = none ∨ ∃ address i, g.containing c address = some i ∧
      d ∈ (analyzePart config (c.routine i) address).diagnostics := by
  unfold trace at h
  split at h
  · obtain ⟨address, h⟩ := mem_framesFrom_diagnostics h
    exact (mem_frameAt_diagnostics h).imp_right fun hpart => ⟨address, hpart⟩
  · cases h

end Dump

namespace Program

variable {config : Config} {listing : List String} {p : Program} {d : Diagnostic}

/-- The log after dumps have been traced. -/
def logAfter (p : Program) (config : Config) (dumps : List (List UInt8)) : Log :=
  p.log ++ dumps.flatMap fun dump => (Dump.trace p.catalogue p.graph config dump).diagnostics

/-- The diagnostic is of a bounded pass over the routine `i` and is tied to the line at the index
`k` of that routine, which the listing has `start` lines further on. -/
structure CountsWithin (p : Program) (config : Config) (listing : List String) (d : Diagnostic)
    (i : Fin p.size) (start k : Nat) : Prop where
  reported : ∃ address, p.graph.containing p.catalogue address = some i ∧
    d ∈ (analyzePart config (p.catalogue.routine i) address).diagnostics
  begins : (p.catalogue.routine i).lineStart = start
  within : d.At (p.catalogue.routine i).lines.toList k
  text : listing[start + k]? = d.lineText

theorem exists_countsWithin (h : ofListing config listing = .ok p) {i : Fin p.size} {address : Int}
    (hcontaining : p.graph.containing p.catalogue address = some i)
    (hd : d ∈ (analyzePart config (p.catalogue.routine i) address).diagnostics) :
    ∃ start k, p.CountsWithin config listing d i start k := by
  obtain ⟨start, hstart, hprefix⟩ := exists_lineStart ((ofListing_ok h).1 i)
  obtain ⟨k, hk⟩ := PassState.at_of_mem_run hd
  refine ⟨start, k, ⟨address, hcontaining, hd⟩, hstart, hk, ?_⟩
  obtain ⟨rest, hrest⟩ := hprefix
  rw [← List.getElem?_drop, ← hrest, List.getElem?_append_left hk.lt_length, hk.text]

/-- What the full pass and the call graph report points into the listing. What is reported while
dumps are traced is tied to no line, or counts the lines of a routine, and then it points into
the listing just if the listing has the same line twice: at the place that is named, and further
on by as many lines as stand before the routine. -/
theorem logAfter_places (config : Config) (listing : List String) :
    ∃ p, ofListing config listing = .ok p ∧
      (∀ d ∈ p.log, d.PointsInto listing) ∧
      ∀ dumps, ∀ d ∈ p.logAfter config dumps, d ∈ p.log ∨ d.lineIndex = none ∨
        ∃ i start k, p.CountsWithin config listing d i start k ∧
          (d.PointsInto listing ↔ listing[k]? = listing[start + k]?) := by
  obtain ⟨p, hp, hanalysis, hmissing⟩ := exists_ofListing config listing
  refine ⟨p, hp, ?_, ?_⟩
  · intro d hd
    rcases List.mem_append.1 hd with hd | hd
    · rw [hanalysis] at hd
      obtain ⟨k, hk⟩ := PassState.at_of_mem_run hd
      exact hk.pointsInto
    · exact Diagnostic.pointsInto_of_none (hmissing d hd) listing
  · intro dumps d hd
    rcases List.mem_append.1 hd with hd | hd
    · exact .inl hd
    · obtain ⟨dump, -, hd⟩ := List.mem_flatMap.1 hd
      rcases Dump.mem_trace_diagnostics hd with hnone | ⟨address, i, hcontaining, hpart⟩
      · exact .inr (.inl hnone)
      · obtain ⟨start, k, hcounts⟩ := exists_countsWithin hp hcontaining hpart
        refine .inr (.inr ⟨i, start, k, hcounts, ?_⟩)
        rw [hcounts.within.pointsInto_iff, hcounts.text]

/-! ### A jump behind the start of another routine -/

def jumpLine : String := " 200:\t0c 94 82 00 \tjmp\t0x104\t; 0x104 <alpha+0x4>"

def tailJump : List String :=
  ["00000100 <alpha>:", " 100:\t08 95       \tret", "00000200 <beta>:", jumpLine,
   " 204:\t08 95       \tret"]

/-- The report on the jump by a pass that comes to it at the index. -/
def jumpReport (index : Int) : Diagnostic where
  severity := .warning
  code := "tail-jump-offset"
  message := "outside jump with offset: beta >> alpha+0x4"
  lineIndex := some index
  lineText := some jumpLine

def tailJumpRoutines : Vector Routine 2 :=
  #v[{ name := "alpha", start := 0x100, lines := (tailJump.take 2).toArray },
     { name := "beta", start := 0x200, lineStart := 2, callTargets := .ofList [0x104],
       lines := (tailJump.drop 2).toArray }]

def tailJumping : Program where
  analysis :=
    { routines := tailJumpRoutines.toList
      outcomes := { matched := 3, unmatched := 2 }
      diagnostics := [jumpReport 3] }
  size := 2
  catalogue := { routines := tailJumpRoutines, resolved := Vector.replicate 2 (some []) }
  graph :=
    { order := (List.finRange 2).toArray
      callerIndex := Vector.replicate 2 []
      roots := List.finRange 2 }
  missing :=
    [{ severity := .warning, code := "missing-function",
       message := "Missing function 104 in beta" }]

theorem ofListing_tailJump : ofListing {} tailJump = .ok tailJumping := by
  have hanalyze : analyze {} tailJump = tailJumping.analysis := by decide +kernel
  rw [ofListing, hanalyze]
  cbv

/-- The full pass reports the jump at its place in the listing; the trace of a call from the second
routine reports it once more, two lines further up. -/
theorem not_forall_logAfter_pointsInto :
    ¬ ∀ (config : Config) (listing : List String) (p : Program),
      ofListing config listing = .ok p → ∀ dumps, ∀ d ∈ p.logAfter config dumps,
        d.PointsInto listing := by
  intro h
  have htrace : (Dump.trace tailJumping.catalogue tailJumping.graph {}
      [0x00, 0x00, 0x01, 0x02]).diagnostics = [jumpReport 1] := by
    decide +kernel
  have hmem : jumpReport 1 ∈ tailJumping.logAfter {} [[0x00, 0x00, 0x01, 0x02]] := by
    simp [logAfter, htrace]
  obtain ⟨-, -, htext⟩ := h {} tailJump tailJumping ofListing_tailJump _ _ hmem 1 rfl
  have hother : tailJump[1]? ≠ some jumpLine := by decide
  exact hother htext

end Program
end StackDepth
