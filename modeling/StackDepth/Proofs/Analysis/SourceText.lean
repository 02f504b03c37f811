import Mathlib
import StackDepth.Proofs.Analysis.Figures
import StackDepth.Proofs.Listing.SourceText

/-!
# Source text does not count

A disassembler can be asked to put the source next to the code. Nothing that the analysis finds
depends on it: two listings with the same code lines lead through passes whose states are alike at
every code line, that is, equal but for the numbering of lines and for the text that routines own.

What is left of a routine without these is `Routine.bare`. All handling of instructions commutes
with it (`operate_bare`), so alike states stay alike when they pass the same code line
(`Alike.step`), and a state stays like itself when it passes a line of text (`step_text_alike`).
-/
namespace StackDepth

/-- The diagnostic without the number of its line. -/
def Diagnostic.unplaced (d : Diagnostic) : Diagnostic := { d with lineIndex := none }

namespace Routine

/-- The routine without its place in the listing and without lines of text. -/
def bare (r : Routine) : Routine :=
  { r with lineStart := 0, lines := (codeLines r.lines.toList).toArray }

theorem figures_bare (r : Routine) : r.bare.figures = r.figures := rfl

theorem figures_of_bare {r s : Routine} (h : r.bare = s.bare) : r.figures = s.figures := by
  rw [← figures_bare, h, figures_bare]

theorem codeLines_of_bare {r s : Routine} (h : r.bare = s.bare) :
    codeLines r.lines.toList = codeLines s.lines.toList :=
  congrArg (fun r : Routine => r.lines.toList) h

end Routine

/-- The reaction with a bare routine. -/
def Reaction.bare : Reaction → Reaction
  | .ignored => .ignored
  | .faulted fault => .faulted fault
  | .opened routine clash => .opened routine.bare clash
  | .changed routine warning => .changed routine.bare warning

theorem Reaction.outcome_bare (reaction : Reaction) : reaction.bare.outcome = reaction.outcome := by
  cases reaction <;> rfl

/-! ### One operation -/

namespace Routine

variable (config : Config) (r : Routine)

theorem reserve_bare (amount : Int) : r.bare.reserve amount = (r.reserve amount).bare := by
  have hreserved : r.bare.reserved = r.reserved := rfl
  unfold reserve
  rw [hreserved]
  split
  · rfl
  · split <;> rfl

theorem findLoads_bare :
    findLoads config {} r.bare.lines.toList.reverse = findLoads config {} r.lines.toList.reverse :=
  findLoads_congr config (codeLines_codeLines _)

theorem saveRegisters_bare (offset : Option Nat) :
    r.bare.saveRegisters config offset = (r.saveRegisters config offset).bare := by
  unfold saveRegisters
  rw [findLoads_bare]
  split
  · rfl
  · exact r.reserve_bare _
  · rfl

theorem jump_bare (target : Nat) (name : String) (offset : Option Nat) :
    r.bare.jump config target name offset = (r.jump config target name offset).bare := by
  have hname : r.bare.name = r.name := rfl
  unfold jump
  rw [hname]
  split <;> rfl

theorem release_bare (amount : Nat) :
    r.bare.release config amount = (r.release config amount).bare := by
  have hreserved : r.bare.reserved = r.reserved := rfl
  unfold release
  simp only [hreserved]
  split
  · rfl
  · split <;> rfl

/-- What an operation does to a routine does not depend on the text in it. -/
theorem operate_bare (mode : PassMode) (operation : Operation) :
    r.bare.operate config mode operation = (r.operate config mode operation).bare := by
  cases operation with
  | push | selfCall | call | frameLoad | stackLow | other => rfl
  | registerSave offset => exact r.saveRegisters_bare config offset
  | jump target name offset => exact r.jump_bare config target name offset
  | stackDecrement amount =>
    rw [operate, operate]
    split
    · rfl
    · exact r.reserve_bare amount
  | stackIncrement amount =>
    rw [operate, operate]
    split
    · exact r.release_bare config amount
    · rfl
  | pop | registerRestore =>
    rw [operate, operate]
    split <;> rfl

end Routine

/-! ### One line -/

namespace PassState

/-- The states are equal but for the numbers of lines, the text that routines own, and how many
lines did nothing. -/
structure Alike (s t : PassState) : Prop where
  opened : s.opened.map Routine.bare = t.opened.map Routine.bare
  matched : s.outcomes.matched = t.outcomes.matched
  faulted : s.outcomes.faulted = t.outcomes.faulted
  diagnostics : s.diagnostics.map Diagnostic.unplaced = t.diagnostics.map Diagnostic.unplaced

variable {config : Config} {mode : PassMode} {s t u : PassState}

theorem Alike.refl (s : PassState) : s.Alike s := ⟨rfl, rfl, rfl, rfl⟩

theorem Alike.symm (h : s.Alike t) : t.Alike s :=
  ⟨h.opened.symm, h.matched.symm, h.faulted.symm, h.diagnostics.symm⟩

theorem Alike.trans (h : s.Alike t) (h' : t.Alike u) : s.Alike u :=
  ⟨h.opened.trans h'.opened, h.matched.trans h'.matched, h.faulted.trans h'.faulted,
    h.diagnostics.trans h'.diagnostics⟩

theorem name_holder?_bare (routines : List Routine) (address : Int) :
    ((routines.map Routine.bare).find? (·.start = address)).map Routine.name =
      (routines.find? (·.start = address)).map Routine.name := by
  rw [List.find?_map, Option.map_map]
  rfl

/-- Alike states find the same name at an address. -/
theorem Alike.name_holder? (h : s.Alike t) (address : Int) :
    (s.holder? address).map Routine.name = (t.holder? address).map Routine.name := by
  have hs := name_holder?_bare s.opened.reverse address
  have ht := name_holder?_bare t.opened.reverse address
  rw [List.map_reverse, h.opened, ← List.map_reverse] at hs
  rw [holder?, holder?, ← hs, ← ht]

theorem Alike.openRoutine (h : s.Alike t) (address : Nat) (name : String) :
    (s.openRoutine address name).bare = (t.openRoutine address name).bare := by
  have hclash : (s.holder? address).map (fun first =>
      LineFault.duplicateRoutine name address first.name) =
      (t.holder? address).map fun first => LineFault.duplicateRoutine name address first.name := by
    have := congrArg (Option.map fun first => LineFault.duplicateRoutine name address first)
      (h.name_holder? address)
    rwa [Option.map_map, Option.map_map] at this
  rw [PassState.openRoutine, PassState.openRoutine, hclash]
  rfl

/-- Alike states react alike to a line, whatever text comes behind it. -/
theorem Alike.react (h : s.Alike t) (line : String) {following following' : List String}
    (hfollowing : codeLines following = codeLines following') :
    (s.react config mode line following).bare = (t.react config mode line following').bare := by
  unfold PassState.react
  rw [Line.classifyAt_congr config line hfollowing]
  split
  · rfl
  · exact h.openRoutine _ _
  · rename_i operation _
    have hopened := h.opened
    cases hs : s.opened with
    | nil =>
      rw [hs] at hopened
      rw [List.map_eq_nil_iff.1 hopened.symm]
    | cons current earlier =>
      rw [hs] at hopened
      obtain ⟨current', earlier', ht, hcurrent, -⟩ := List.map_eq_cons_iff.1 hopened.symm
      rw [ht]
      simp only
      rw [← Routine.operate_bare, ← Routine.operate_bare, hcurrent]
  · rfl

theorem routines_bare (s : PassState) (reaction : Reaction) :
    (s.routines reaction).map Routine.bare =
      routines { s with opened := s.opened.map Routine.bare } reaction.bare := by
  cases reaction with
  | ignored | faulted | opened => rfl
  | changed routine warning => simp only [routines, Reaction.bare, List.map_cons, List.map_tail]

theorem Alike.routines (h : s.Alike t) {reaction reaction' : Reaction}
    (hreaction : reaction.bare = reaction'.bare) :
    (s.routines reaction).map Routine.bare = (t.routines reaction').map Routine.bare := by
  rw [routines_bare, routines_bare, hreaction, h.opened]
  cases reaction'.bare <;> rfl

theorem ownLine_bare (line : String) {routines routines' : List Routine}
    (h : routines.map Routine.bare = routines'.map Routine.bare) :
    (ownLine line routines).map Routine.bare = (ownLine line routines').map Routine.bare := by
  cases routines with
  | nil => rw [List.map_eq_nil_iff.1 h.symm]
  | cons r earlier =>
    obtain ⟨r', earlier', rfl, hr, hearlier⟩ := List.map_eq_cons_iff.1 h.symm
    have hcode := Routine.codeLines_of_bare hr
    have hfigures := Routine.figures_eq_iff.1 (Routine.figures_of_bare hr)
    simp [ownLine, Routine.bare, hearlier, hcode, hfigures]

theorem ownLine_text {line : String} (h : Line.isText line = true) (routines : List Routine) :
    (ownLine line routines).map Routine.bare = routines.map Routine.bare := by
  cases routines with
  | nil => rfl
  | cons r earlier =>
    have hcode : codeLines [line] = [] := codeLines_cons_text h []
    simp [ownLine, Routine.bare, hcode]

theorem diagnose_unplaced (s t : PassState) (line : String) {reaction reaction' : Reaction}
    (h : reaction.bare = reaction'.bare) :
    (s.diagnose line reaction).map Diagnostic.unplaced =
      (t.diagnose line reaction').map Diagnostic.unplaced := by
  have hbare : ∀ (s : PassState) (reaction : Reaction),
      s.diagnose line reaction.bare = s.diagnose line reaction := by
    intro s reaction
    cases reaction with
    | ignored | faulted => rfl
    | opened routine clash => cases clash <;> rfl
    | changed routine warning => cases warning <;> rfl
  rw [← hbare s, ← hbare t, h]
  cases reaction'.bare with
  | ignored | faulted => rfl
  | opened routine clash => cases clash <;> rfl
  | changed routine warning => cases warning <;> rfl

theorem count_matched_faulted {o p : Outcomes} (hmatched : o.matched = p.matched)
    (hfaulted : o.faulted = p.faulted) (outcome : Outcome) :
    (o.count outcome).matched = (p.count outcome).matched ∧
      (o.count outcome).faulted = (p.count outcome).faulted := by
  cases outcome <;> simp [Outcomes.count, hmatched, hfaulted]

/-- Alike states stay alike when they pass the same line. -/
theorem Alike.step (h : s.Alike t) (line : String) {following following' : List String}
    (hfollowing : codeLines following = codeLines following') :
    (s.step config mode line following).Alike (t.step config mode line following') := by
  have hreact : (s.react config mode line following).bare =
      (t.react config mode line following').bare := h.react line hfollowing
  have houtcome : (s.react config mode line following).outcome =
      (t.react config mode line following').outcome := by
    rw [← Reaction.outcome_bare, hreact, Reaction.outcome_bare]
  obtain ⟨hmatched, hfaulted⟩ := count_matched_faulted h.matched h.faulted
    (t.react config mode line following').outcome
  constructor
  · exact ownLine_bare line (h.routines hreact)
  · simp only [PassState.step, houtcome, hmatched]
  · simp only [PassState.step, houtcome, hfaulted]
  · simp only [PassState.step, List.map_append, h.diagnostics, diagnose_unplaced s t line hreact]

/-- A line of text leaves everything alike. -/
theorem step_text_alike {line : String} (h : Line.isText line = true) (s : PassState)
    (following : List String) : (s.step config mode line following).Alike s := by
  have hreact : s.react config mode line following = .ignored := by
    unfold PassState.react
    rw [Line.classifyAt_of_isText config h]
  constructor
  · simp only [PassState.step, hreact, PassState.routines, ownLine_text h]
  · simp only [PassState.step, hreact, Reaction.outcome, Outcomes.count]
  · simp only [PassState.step, hreact, Reaction.outcome, Outcomes.count]
  · simp only [PassState.step, hreact, diagnose, List.append_nil]

/-! ### A whole pass -/

theorem endsBefore_text (mode : PassMode) {line : String} (h : Line.isText line = true) :
    mode.endsBefore line = false := by
  cases mode with
  | full => rfl
  | bounded stop =>
    rw [PassMode.endsBefore, (Line.isText_iff.1 h).2]
    rfl

/-- A pass over a listing and one over its code lines keep step at every code line. -/
theorem Alike.run_codeLines (h : s.Alike t) (lines : List String) :
    (s.run config mode lines).Alike (t.run config mode (codeLines lines)) := by
  induction lines generalizing s t with
  | nil => exact h
  | cons line rest ih =>
    cases hline : Line.isText line with
    | true =>
      have hends := endsBefore_text mode hline
      rw [codeLines_cons_text hline, PassState.run, if_neg (by simp [hends])]
      exact ih ((step_text_alike hline s rest).trans h)
    | false =>
      rw [codeLines_cons_code hline, PassState.run, PassState.run]
      split
      · exact h
      · exact ih (h.step line (codeLines_codeLines rest).symm)

/-- Passes over listings with the same code lines end in alike states. -/
theorem run_alike (config : Config) (mode : PassMode) {lines lines' : List String}
    (h : codeLines lines = codeLines lines') :
    (run config mode {} lines).Alike (run config mode {} lines') := by
  have hrun : (run config mode {} lines).Alike (run config mode {} (codeLines lines)) :=
    (Alike.refl {}).run_codeLines lines
  have hrun' : (run config mode {} lines').Alike (run config mode {} (codeLines lines')) :=
    (Alike.refl {}).run_codeLines lines'
  rw [h] at hrun
  exact hrun.trans hrun'.symm

end PassState

theorem analyze_bare (config : Config) {lines lines' : List String}
    (h : codeLines lines = codeLines lines') :
    (analyze config lines).routines.map Routine.bare =
      (analyze config lines').routines.map Routine.bare := by
  have halike := PassState.run_alike config .full h
  have hbare := map_firstByStart (f := Routine.bare) fun _ => rfl
  simp only [analyze, hbare, List.map_reverse, halike.opened]

/-- Bounded passes over routines with the same code lines come to the same figures. -/
theorem analyzePart_bare (config : Config) {r r' : Routine} (h : r.bare = r'.bare) (stop : Int) :
    (analyzePart config r stop).routine.figures = (analyzePart config r' stop).routine.figures := by
  have halike := PassState.run_alike config (.bounded stop) (Routine.codeLines_of_bare h)
  have hfigures := Routine.figures_eq_iff.1 (Routine.figures_of_bare h)
  have hopened := halike.opened
  simp only [analyzePart]
  cases hs : (PassState.run config (.bounded stop) {} r.lines.toList).opened with
  | nil =>
    rw [hs] at hopened
    rw [List.map_eq_nil_iff.1 hopened.symm]
    simp [Routine.figures, hfigures]
  | cons current earlier =>
    rw [hs] at hopened
    obtain ⟨current', earlier', hs', hcurrent, -⟩ := List.map_eq_cons_iff.1 hopened.symm
    rw [hs']
    exact Routine.figures_of_bare hcurrent.symm

/-! ### The program of a listing -/

theorem bare_of_start_eq (config : Config) {lines lines' : List String}
    (h : codeLines lines = codeLines lines') {r r' : Routine}
    (hr : r ∈ (analyze config lines).routines) (hr' : r' ∈ (analyze config lines').routines)
    (hstart : r.start = r'.start) : r.bare = r'.bare := by
  have hmem : r.bare ∈ (analyze config lines').routines.map Routine.bare := by
    rw [← analyze_bare config h]
    exact List.mem_map_of_mem hr
  obtain ⟨other, hother, hbare⟩ := List.mem_map.1 hmem
  have hother' : other.start = r'.start := by
    rw [← hstart]
    exact congrArg Figures.start (Routine.figures_of_bare hbare)
  rw [← hbare, List.inj_on_of_nodup_map (nodup_firstByStart _) hother hr' hother']

/-- Listings with the same code lines have programs with one call graph. -/
theorem ofListing_alike (config : Config) {lines lines' : List String}
    (h : codeLines lines = codeLines lines') :
    ∃ (size : Nat) (c c' : Catalogue size) (g : CallGraph size) (missing : List Diagnostic),
      Program.ofListing config lines = .ok ⟨analyze config lines, size, c, g, missing⟩ ∧
      Program.ofListing config lines' = .ok ⟨analyze config lines', size, c', g, missing⟩ ∧
      c.Alike c' ∧ ∀ i, (c.routine i).bare = (c'.routine i).bare := by
  have hbare := analyze_bare config h
  obtain ⟨n, hn⟩ : ∃ n, (analyze config lines).routines.length = n := ⟨_, rfl⟩
  have hn' : (analyze config lines').routines.length = n := by
    rw [← hn, ← List.length_map Routine.bare, ← hbare, List.length_map]
  rw [Program.ofListing_eq hn, Program.ofListing_eq hn']
  generalize hv : (⟨(analyze config lines).routines.toArray, by simpa using hn⟩ :
    Vector Routine n) = v
  generalize hv' : (⟨(analyze config lines').routines.toArray, by simpa using hn'⟩ :
    Vector Routine n) = v'
  have hmap : v.map Routine.bare = v'.map Routine.bare := by
    subst hv hv'
    simpa using hbare
  have hfigures : v.map Routine.figures = v'.map Routine.figures := by
    have := congrArg (Vector.map Routine.figures) hmap
    rwa [Vector.map_map, Vector.map_map] at this
  obtain ⟨g, hg, hg', hmissing, halike⟩ := CallGraph.build_alike
    (Catalogue.alike_ofVector hfigures) (List.nodup_finRange n)
    fun i _ => Catalogue.callees?_ofVector v i
  refine ⟨n, _, _, g, (CallGraph.build (Catalogue.ofVector v) (List.finRange n)).diagnostics,
    ?_, ?_, halike, fun i => ?_⟩
  · simp only [hg]
    rfl
  · simp only [hg', hmissing]
    rfl
  · rw [Catalogue.routine, Catalogue.routine, (CallGraph.build_ok hg).1, (CallGraph.build_ok hg').1]
    simpa [Catalogue.ofVector] using congrArg (fun v : Vector Routine n => v[i]) hmap

/-- Lines of text put into a listing change nothing: not the routines with their figures, nor how
many lines counted or failed, nor the diagnostics but for the numbers of their lines, nor what a
bounded pass finds; and so not the call graph, the paths, or the trace of any dump. -/
theorem interleaved_inert (config : Config) {lines lines' : List String}
    (h : Interleaved lines lines') :
    (analyze config lines).routines.map Routine.figures =
        (analyze config lines').routines.map Routine.figures ∧
      (analyze config lines).outcomes.matched = (analyze config lines').outcomes.matched ∧
      (analyze config lines).outcomes.faulted = (analyze config lines').outcomes.faulted ∧
      (analyze config lines).diagnostics.map Diagnostic.unplaced =
        (analyze config lines').diagnostics.map Diagnostic.unplaced ∧
      (∀ r ∈ (analyze config lines).routines, ∀ r' ∈ (analyze config lines').routines,
        r.start = r'.start → ∀ stop, (analyzePart config r stop).routine.figures =
          (analyzePart config r' stop).routine.figures) ∧
      ∃ (size : Nat) (c c' : Catalogue size) (g : CallGraph size) (missing : List Diagnostic),
        Program.ofListing config lines = .ok ⟨analyze config lines, size, c, g, missing⟩ ∧
        Program.ofListing config lines' = .ok ⟨analyze config lines', size, c', g, missing⟩ ∧
        (∀ i, (c.routine i).figures = (c'.routine i).figures) ∧
        (∀ root, pathsFrom c config root = pathsFrom c' config root ∧
          worstPath c config root = worstPath c' config root) ∧
        ∀ dump, (Dump.trace c g config dump).result = (Dump.trace c' g config dump).result := by
  have hcode := h.codeLines_eq
  have halike := PassState.run_alike config .full hcode
  have hfigures : (analyze config lines).routines.map Routine.figures =
      (analyze config lines').routines.map Routine.figures := by
    have := congrArg (List.map Routine.figures) (analyze_bare config hcode)
    rwa [List.map_map, List.map_map] at this
  obtain ⟨size, c, c', g, missing, hp, hp', hcatalogue, hbare⟩ := ofListing_alike config hcode
  refine ⟨hfigures, halike.matched, halike.faulted, halike.diagnostics, ?_,
    size, c, c', g, missing, hp, hp', hcatalogue.figures, fun root => ?_, fun dump => ?_⟩
  · intro r hr r' hr' hstart stop
    exact analyzePart_bare config (bare_of_start_eq config hcode hr hr' hstart) stop
  · exact ⟨pathsFrom_alike hcatalogue config root, worstPath_alike hcatalogue config root⟩
  · exact Dump.trace_alike hcatalogue (fun i stop => analyzePart_bare config (hbare i) stop) g dump

/-! ### A frame with its source

The source stands between the two halves of the stack pointer update and within its footer. -/

def bigFrame : List String :=
  ["500 <huge>:", "500:\tc0 50\tsubi\tr28, 0x00\t; 0", "502:\td8 40\tsbci\tr29, 0x08\t; 8",
   "504:\t0f b6\tin\tr0, 0x3f\t; 63", "506:\tf8 94\tcli", "508:\tde bf\tout\t0x3e, r29\t; 62"]

def bigFrameSource : List String :=
  ["void huge()", "500 <huge>:", "500:\tc0 50\tsubi\tr28, 0x00\t; 0", "\x7b char buffer[2048];",
   "502:\td8 40\tsbci\tr29, 0x08\t; 8", "504:\t0f b6\tin\tr0, 0x3f\t; 63", "",
   "506:\tf8 94\tcli", "508:\tde bf\tout\t0x3e, r29\t; 62"]

theorem interleaved_bigFrame : Interleaved bigFrame bigFrameSource :=
  .insert (by decide +kernel) <| .keep _ <| .keep _ <| .insert (by decide +kernel) <| .keep _ <|
    .keep _ <| .insert (by decide +kernel) <| .keep _ <| .keep _ .nil

theorem interleaved_inert_bigFrame :
    Interleaved bigFrame bigFrameSource ∧
      (analyze {} bigFrameSource).routines.map Routine.figures =
        [⟨"huge", 0x500, 2048, 2048, ∅⟩] := by
  refine ⟨interleaved_bigFrame, ?_⟩
  rw [← (interleaved_inert {} interleaved_bigFrame).1]
  decide +kernel

end StackDepth
