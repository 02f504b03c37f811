import Mathlib
import StackDepth.Proofs.Analysis.SourceText
import StackDepth.Proofs.Analysis.Visits
import StackDepth.Proofs.Listing.Readings

/-!
# What a routine is charged for

One would expect that a full pass charges a routine for its own lines only. This fails at one
place. The look ahead along a stack pointer update passes over labels, so that a routine which
ends within an update is charged for the rest of it in the next one.

There is no other way: a full pass over the lines of a routine alone comes to the same figures as
one over the listing if and only if no update that reserves stack in the routine is completed
behind its end. The reservation of such an update stays on the routine's account. The routine's
own lines do not show it, and what comes behind its first instruction there are parts of the update
and text, none of which reserves anything.
-/
namespace StackDepth

def Operation.reserves : Operation → Bool
  | registerSave _ | stackDecrement _ => true
  | _ => false

namespace Routine

/-- The line begins an update that reserves a block in the routine and that the routine's own lines
do not complete. -/
def overruns (config : Config) (r : Routine) (line : String) (following : List String) : Bool :=
  match Line.operationAt config line following with
  | some (.stackDecrement amount) =>
    config.reserveThreshold ≤ amount && amount ≠ 0 && r.reserved = 0 &&
      Line.operationAt config line (untilLabel following) ≠ some (.stackDecrement amount)
  | _ => false

variable {config : Config} {r s : Routine} {line : String} {following following' : List String}

theorem overruns_decrement {amount : Nat}
    (h : Line.operationAt config line following = some (.stackDecrement amount)) :
    r.overruns config line following = true ↔
      config.reserveThreshold ≤ amount ∧ amount ≠ 0 ∧ r.reserved = 0 ∧
        Line.operationAt config line (untilLabel following) ≠ some (.stackDecrement amount) := by
  simp [overruns, h, and_assoc]

theorem exists_of_overruns (h : r.overruns config line following = true) :
    ∃ (low amount : Nat), Line.operation? config line = some (.stackLow low) ∧
      Line.operationAt config line following = some (.stackDecrement amount) ∧
      Line.operationAt config line (untilLabel following) = some .other ∧
      config.reserveThreshold ≤ amount ∧ amount ≠ 0 ∧ r.reserved = 0 := by
  cases hoperation : Line.operationAt config line following with
  | none => simp [overruns, hoperation] at h
  | some operation =>
    cases operation with
    | stackDecrement amount =>
      obtain ⟨hthreshold, hamount, hreserved, hopen⟩ := (overruns_decrement hoperation).1 h
      rcases Line.operationAt_untilLabel config line following with hsame | ⟨hother, low, hlow⟩
      · exact absurd (hsame.trans hoperation) hopen
      · exact ⟨low, amount, hlow, rfl, hother, hthreshold, hamount, hreserved⟩
    | _ => simp [overruns, hoperation] at h

/-! ### Lines that read alike -/

theorem push_bare (hfigures : r.figures = s.figures) {lines lines' : Array String}
    (hlines : codeLines lines.toList = codeLines lines'.toList) (line : String) :
    ({ r with lines := lines.push line } : Routine).bare =
      ({ s with lines := lines'.push line } : Routine).bare := by
  have := figures_eq_iff.1 hfigures
  simp [bare, hlines, this]

theorem change?_bare (mode : PassMode) (h : r.bare = s.bare)
    (hline : Line.operationAt config line following = Line.operationAt config line following') :
    (r.change? config mode line following).map bare =
      (s.change? config mode line following').map bare := by
  unfold change?
  rw [hline]
  cases Line.operationAt config line following' with
  | none => rfl
  | some operation =>
    have hoperate : (r.operate config mode operation).bare =
        (s.operate config mode operation).bare := by
      rw [← operate_bare, h, operate_bare]
    simp only
    cases hr : r.operate config mode operation <;> cases hs : s.operate config mode operation <;>
      simp_all [Reaction.bare]

theorem pass_bare (mode : PassMode) (h : r.bare = s.bare)
    (hline : Line.operationAt config line following = Line.operationAt config line following') :
    (r.pass config mode line following).bare = (s.pass config mode line following').bare := by
  have hchange := change?_bare mode h hline
  refine push_bare (figures_of_bare ?_) (codeLines_of_bare h) line
  cases hr : r.change? config mode line following with
  | none =>
    rw [hr] at hchange
    rw [Option.map_eq_none_iff.1 hchange.symm]
    exact h
  | some after =>
    rw [hr] at hchange
    obtain ⟨after', hs, hafter⟩ := Option.map_eq_some_iff.1 hchange.symm
    rw [hs]
    exact hafter.symm

/-! ### Lines that begin an open update -/

theorem pass_of_other {mode : PassMode}
    (h : Line.operationAt config line following = some .other) :
    r.pass config mode line following = { r with lines := r.lines.push line } := by
  apply pass_of_no_change
  simp only [change?, h, operate]

/-- An open update does nothing to the routine unless it overruns its end. -/
theorem pass_of_open {low : Nat} (hlow : Line.operation? config line = some (.stackLow low))
    (hopen : Line.operationAt config line (untilLabel following) = some .other)
    (h : r.overruns config line following = false) :
    r.pass config .full line following = { r with lines := r.lines.push line } := by
  cases hchange : r.change? config .full line following with
  | none => exact pass_of_no_change hchange
  | some after =>
    obtain ⟨operation, warning, hoperation, hchanged⟩ := change?_eq_some hchange
    have hupdate := hoperation
    rw [Line.operationAt_of_stackLow hlow] at hupdate
    rcases StackPointer.operation?_cases hupdate with rfl | ⟨amount, rfl⟩ | ⟨amount, rfl⟩
    · cases hchanged
    · rw [operate] at hchanged
      split at hchanged
      · cases hchanged
      · rename_i hthreshold
        obtain ⟨hreserved, -, rfl⟩ := reserve_changed hchanged
        have hzero : amount = 0 := by
          by_contra hamount
          have hoverruns := (overruns_decrement hoperation).2
            ⟨Int.not_lt.1 hthreshold, hamount, hreserved, by rw [hopen]; simp⟩
          rw [h] at hoverruns
          cases hoverruns
        rw [pass_of_change hchange, hzero]
        simp [hreserved]
    · cases hchanged

/-- A line that does not overrun the end of the routine does the same to it among its own lines. -/
theorem pass_own (h : r.overruns config line following = false) (hbare : r.bare = s.bare) :
    (r.pass config .full line following).bare =
      (s.pass config .full line (untilLabel following)).bare := by
  rcases Line.operationAt_untilLabel config line following with hsame | ⟨hopen, low, hlow⟩
  · exact pass_bare .full hbare hsame.symm
  · rw [pass_of_open hlow hopen h, pass_of_other hopen]
    exact push_bare (figures_of_bare hbare) (codeLines_of_bare hbare) line

/-! ### What stays reserved -/

theorem reservation?_of_not_reserves (r : Routine) {operation : Operation}
    (h : operation.reserves = false) : r.reservation? config operation = none := by
  cases operation with
  | registerSave | stackDecrement => cases h
  | _ => rfl

/-- In a full pass only a reservation changes what is reserved, and only where nothing is. -/
theorem reserved_pass (h : r.reserved ≠ 0 ∨
      ∀ operation ∈ Line.operationAt config line following, operation.reserves = false) :
    (r.pass config .full line following).reserved = r.reserved := by
  cases hchange : r.change? config .full line following with
  | none => rw [pass_of_no_change hchange]
  | some after =>
    obtain ⟨operation, warning, hoperation, hchanged⟩ := change?_eq_some hchange
    have hafter : after.reserved = r.reserved := by
      cases applies_of_operate hchanged with
      | reserve hreservation hreserved =>
        rcases h with h | h
        · exact absurd hreserved h
        · rw [r.reservation?_of_not_reserves (h operation hoperation)] at hreservation
          cases hreservation
      | push | selfCall | call | jump => rfl
      | pop hmode | release hmode | restore _ hmode => cases hmode
    rw [pass_of_change hchange]
    exact hafter

theorem reserved_follow {rest : List String} (h : r.reserved ≠ 0 ∨
      ∀ line ∈ rest, ∀ following, ∀ operation ∈ Line.operationAt config line following,
        operation.reserves = false) :
    (r.follow config .full rest).reserved = r.reserved := by
  induction rest generalizing r with
  | nil => rfl
  | cons line rest ih =>
    cases hlabel : Line.isLabel line with
    | true => rw [follow_stop (by simp [hlabel])]
    | false =>
      have hpass : (r.pass config .full line rest).reserved = r.reserved :=
        reserved_pass (h.imp_right fun hlines => hlines line List.mem_cons_self rest)
      rw [follow_pass hlabel rfl, ih, hpass]
      rw [hpass]
      exact h.imp_right fun hlines other hother => hlines other (List.mem_cons_of_mem _ hother)

/-- Behind the first instruction of an update that is open at the next label, nothing reserves
stack before that label. -/
theorem not_reserves_of_open {low amount : Nat} {rest : List String}
    (hwhole : StackPointer.operation? low rest = some (.stackDecrement amount))
    (hopen : StackPointer.operation? low (untilLabel rest) = some .other) {other : String}
    (hother : other ∈ untilLabel rest) (following : List String) {operation : Operation}
    (hoperation : Line.operationAt config other following = some operation) :
    operation.reserves = false := by
  cases haddress : (Line.address? other).isSome with
  | false =>
    have htext : Line.isText other = true := by
      rw [Line.isText_iff]
      exact ⟨Line.isLabel_eq_false.1 (isLabel_of_mem_untilLabel hother), by simpa using haddress⟩
    simp [Line.operationAt, Line.classifyAt_of_isText config htext] at hoperation
  | true =>
    have hpart := StackPointer.isPart_of_open hwhole hopen hother haddress
    have hlow : ∀ low, Line.operation? config other ≠ some (.stackLow low) :=
      fun low h => (StackPointer.operation?_of_isPart hpart h).2.1 rfl
    rw [Line.operationAt_of_ne_stackLow hlow] at hoperation
    obtain ⟨hsave, -, hdecrement⟩ := StackPointer.operation?_of_isPart hpart hoperation
    cases operation with
    | registerSave offset => exact absurd rfl hsave
    | stackDecrement amount => exact absurd rfl (hdecrement amount)
    | _ => rfl

/-- What an update reserves that overruns the end of the routine, its own lines do not reserve. -/
theorem reserved_follow_of_overruns {rest : List String} (hbare : r.bare = s.bare)
    (hlabel : Line.isLabel line = false) (h : r.overruns config line rest = true) :
    (r.follow config .full (line :: rest)).reserved ≠
      (s.follow config .full (untilLabel (line :: rest))).reserved := by
  obtain ⟨low, amount, hlow, hwhole, hopen, hthreshold, hamount, hreserved⟩ := exists_of_overruns h
  have hwith : (r.follow config .full (line :: rest)).reserved = amount := by
    have hchanged : r.operate config .full (.stackDecrement amount) = .changed
        { r with stackUsed := r.stackUsed + amount, reserved := amount } none := by
      rw [operate, if_neg (Int.not_lt.2 hthreshold), reserve, if_pos hreserved]
    have hpass : (r.pass config .full line rest).reserved = amount := by
      rw [pass_of_operate hwhole hchanged]
    rw [follow_pass hlabel rfl, reserved_follow, hpass]
    left
    rw [hpass]
    exact Int.natCast_ne_zero.2 hamount
  have hwithout : (s.follow config .full (untilLabel (line :: rest))).reserved = 0 := by
    have hsame : s.reserved = r.reserved := by
      rw [(figures_eq_iff.1 (figures_of_bare hbare)).2.2.2.1]
    rw [Line.operationAt_of_stackLow hlow] at hwhole
    rw [untilLabel_body hlabel, follow_pass hlabel rfl, reserved_follow, pass_of_other hopen, hsame,
      hreserved]
    rw [Line.operationAt_of_stackLow hlow] at hopen
    exact .inr fun other hother following operation hoperation =>
      not_reserves_of_open hwhole hopen hother following hoperation
  rw [hwith, hwithout]
  exact Int.natCast_ne_zero.2 hamount

/-! ### All lines of a routine -/

/-- Up to the first line that overruns both passes agree, and from there on they never do. -/
theorem figures_follow_iff {rest : List String} (hbare : r.bare = s.bare) :
    (s.follow config .full (untilLabel rest)).figures = (r.follow config .full rest).figures ↔
      ∀ stay ∈ r.stays config .full rest,
        stay.routine.overruns config stay.line stay.following = false := by
  induction rest generalizing r s with
  | nil => simpa [stays, follow, untilLabel] using (figures_of_bare hbare).symm
  | cons line rest ih =>
    cases hlabel : Line.isLabel line with
    | true =>
      rw [untilLabel_label hlabel, follow_stop (by simp [hlabel]), stays_stop (by simp [hlabel])]
      simpa [follow] using (figures_of_bare hbare).symm
    | false =>
      rw [stays_pass hlabel rfl, List.forall_mem_cons]
      cases hoverruns : r.overruns config line rest with
      | true =>
        have hne := reserved_follow_of_overruns hbare hlabel hoverruns
        have hfigures : (s.follow config .full (untilLabel (line :: rest))).figures ≠
            (r.follow config .full (line :: rest)).figures :=
          fun h => hne (figures_eq_iff.1 h).2.2.2.1.symm
        simp [hfigures]
      | false =>
        rw [untilLabel_body hlabel, follow_pass hlabel rfl, follow_pass hlabel rfl,
          ih (pass_own hoverruns hbare)]
        simp

end Routine

theorem Routine.overruns_of_label (config : Config) (r : Routine) {line : String}
    (h : Line.isLabel line = true) (following : List String) :
    r.overruns config line following = false := by
  obtain ⟨⟨address, name⟩, hlabel⟩ := Option.isSome_iff_exists.1 h
  simp [overruns, Line.operationAt, Line.classifyAt_of_label config hlabel]

/-- A full pass over the lines of a routine alone finds it as the pass over the listing did, if and
only if no update that reserves stack in it is completed behind its end. -/
theorem analyze_own_lines_iff (config : Config) (lines : List String) (f : Routine)
    (hf : f ∈ (analyze config lines).routines) :
    (∃ g, (analyze config f.lines.toList).routines = [g] ∧ g.figures = f.figures ∧
        g.lines = f.lines) ↔
      ∀ v ∈ PassState.visits config .full {} lines, ∀ r ∈ v.current?,
        r.lineStart = f.lineStart → r.overruns config v.line v.following = false := by
  obtain ⟨label, address, name, index, rest, hlabel, hfollowed⟩ :=
    PassState.exists_followed (mem_opened_of_mem_analyze hf)
  have hstays := hfollowed.forall_stays_iff
    (motive := fun r line following => r.overruns config line following = false)
  have hvisits : (∀ v ∈ PassState.visits config .full {} lines, ∀ r ∈ v.current?,
      r.lineStart = f.lineStart → v.isLabel = false →
        r.overruns config v.line v.following = false) ↔
      ∀ v ∈ PassState.visits config .full {} lines, ∀ r ∈ v.current?,
        r.lineStart = f.lineStart → r.overruns config v.line v.following = false := by
    constructor
    · intro h v hv r hr hstart
      cases hbody : v.isLabel with
      | true => exact r.overruns_of_label config hbody v.following
      | false => exact h v hv r hr hstart hbody
    · exact fun h v hv r hr hstart _ => h v hv r hr hstart
  have hbare : Routine.bare { name, start := address, lineStart := index, lines := #[label] } =
      Routine.bare { name, start := address, lines := #[label] } := rfl
  have hlines : f.lines.toList = label :: untilLabel rest := hfollowed.lines_eq
  rw [← hvisits, ← hstays, ← Routine.figures_follow_iff hbare, ← hfollowed.eq_follow, hlines,
    analyze_own config hlabel]
  constructor
  · rintro ⟨g, hg, hfigures, -⟩
    rw [List.singleton_inj.1 hg]
    exact hfigures
  · intro hfigures
    refine ⟨_, rfl, hfigures, ?_⟩
    rw [← Array.toList_inj, Routine.follow_full_lines, untilLabel_untilLabel, hlines]
    rfl

/-! ### An update across a label

The first routine holds the subtraction, and the second one the instructions that write the stack
pointer. -/

def splitUpdate : List String :=
  ["00000100 <alpha>:",
   " 100:\tc0 50       \tsubi\tr28, 0x00\t; 0",
   " 102:\td8 40       \tsbci\tr29, 0x08\t; 8",
   "00000104 <beta>:",
   " 104:\t0f b6       \tin\tr0, 0x3f\t; 63",
   " 106:\tf8 94       \tcli",
   " 108:\tde bf       \tout\t0x3e, r29\t; 62",
   " 10a:\t08 95       \tret"]

/-- Not every routine is charged for its own lines only. -/
theorem not_forall_analyze_own_lines :
    ¬ ∀ (config : Config) (lines : List String), ∀ f ∈ (analyze config lines).routines,
      ∃ g ∈ (analyze config f.lines.toList).routines, g.figures = f.figures ∧
        g.lines = f.lines := by
  intro h
  have hused : (analyze {} splitUpdate).routines.map Routine.stackUsed = [2048, 0] := by
    decide +kernel
  have halone : ∀ f ∈ (analyze {} splitUpdate).routines,
      ∀ g ∈ (analyze {} f.lines.toList).routines, g.stackUsed = 0 := by
    decide +kernel
  obtain ⟨f, rest, hroutines, hf, -⟩ := List.map_eq_cons_iff.1 hused
  have hmem : f ∈ (analyze {} splitUpdate).routines := by rw [hroutines]; exact List.mem_cons_self
  obtain ⟨g, hg, hfigures, -⟩ := h {} splitUpdate f hmem
  have hsame := (Routine.figures_eq_iff.1 hfigures).2.2.1
  rw [halone f hmem g hg, hf] at hsame
  cases hsame

theorem analyze_own_lines_splitUpdate :
    ∃ f g, (analyze {} splitUpdate).routines = [f, g] ∧
      (¬ ∃ h, (analyze {} f.lines.toList).routines = [h] ∧ h.figures = f.figures ∧
        h.lines = f.lines) ∧
      ∃ h, (analyze {} g.lines.toList).routines = [h] ∧ h.figures = g.figures ∧
        h.lines = g.lines := by
  have hstart : (analyze {} splitUpdate).routines.map Routine.lineStart = [0, 3] := by
    decide +kernel
  have hfirst : ¬ ∀ v ∈ PassState.visits {} .full {} splitUpdate, ∀ r ∈ v.current?,
      r.lineStart = 0 → r.overruns {} v.line v.following = false := by decide +kernel
  have hsecond : ∀ v ∈ PassState.visits {} .full {} splitUpdate, ∀ r ∈ v.current?,
      r.lineStart = 3 → r.overruns {} v.line v.following = false := by decide +kernel
  obtain ⟨f, rest, hroutines, hf, hrest⟩ := List.map_eq_cons_iff.1 hstart
  obtain ⟨g, rfl, hg⟩ := List.map_eq_singleton_iff.1 hrest
  refine ⟨f, g, hroutines, ?_, ?_⟩
  · rw [analyze_own_lines_iff {} splitUpdate f (by simp [hroutines]), hf]
    exact hfirst
  · rw [analyze_own_lines_iff {} splitUpdate g (by simp [hroutines]), hg]
    exact hsecond

end StackDepth
