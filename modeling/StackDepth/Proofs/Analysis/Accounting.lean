import Mathlib
import StackDepth.Proofs.Analysis.Visits

/-!
# Stack accounting

Two numbers of a routine are kept along a pass: the bytes in use and the part of them that is
reserved as a block. Pushes, pops and calls to the next instruction move the first alone. A
reservation sets the second from zero and raises the first by as much, and a release sets it back
to zero, but lowers the first by the amount that the instructions give, whatever was reserved.
So the bytes in use are always what was pushed and reserved, up to the drift of the releases, and
every release that drifts is reported.
-/
namespace StackDepth

/-! ### Operations that leave a trace -/

namespace Operation

/-- The pass applies the operation wherever it stands. -/
def isCounted (mode : PassMode) : Operation → Bool
  | push | selfCall => true
  | pop => mode.follows
  | _ => false

end Operation

/-- How many lines of the routine stand for the operation. -/
def Routine.occurrences (config : Config) (r : Routine) (operation : Operation) : Nat :=
  r.lines.toList.countP fun line => Line.operation? config line = some operation

structure Applied where
  operation : Operation
  /-- The bytes that the routine had reserved before. -/
  held : Int
deriving DecidableEq, Repr

namespace Applied

def isRelease (a : Applied) : Bool :=
  match a.operation with
  | .stackIncrement _ => true
  | _ => false

/-- What a release leaves in use of the reserved block; less than nothing if it gives back more. -/
def drift (config : Config) (a : Applied) : Int :=
  match a.operation with
  | .stackIncrement amount => a.held - (config.releaseModulus - amount)
  | _ => 0

/-- By how much the operation moves the bytes in use apart from the reserved block. -/
def net (config : Config) (a : Applied) : Int :=
  match a.operation with
  | .push => 1
  | .pop => -1
  | .selfCall => config.returnAddressBytes
  | .stackIncrement _ => a.drift config
  | _ => 0

theorem net_eq (config : Config) (a : Applied) :
    a.net config = (if a.operation = .push then 1 else 0) - (if a.operation = .pop then 1 else 0) +
      config.returnAddressBytes * (if a.operation = .selfCall then 1 else 0) + a.drift config := by
  obtain ⟨operation, held⟩ := a
  cases operation <;> simp [net, drift]

end Applied

def applications (operation : Operation) (applied : List Applied) : Nat :=
  applied.countP (·.operation = operation)

def totalDrift (config : Config) (applied : List Applied) : Int :=
  (applied.map (·.drift config)).sum

def Routine.applied? (config : Config) (mode : PassMode) (r : Routine) (line : String)
    (following : List String) : Option Applied := do
  let operation ← Line.operationAt config line following
  let _ ← r.change? config mode line following
  some ⟨operation, r.reserved⟩

def Visit.applied? (config : Config) (mode : PassMode) (v : Visit) : Option Applied := do
  (← v.current?).applied? config mode v.line v.following

/-- The operations that were applied since the last label. -/
def appliedSinceLabel (config : Config) (mode : PassMode) (past : List Visit) : List Applied :=
  (past.rtakeWhile (!·.isLabel)).filterMap (Visit.applied? config mode)

theorem Line.operationAt_of_isCounted {config : Config} {mode : PassMode} {line : String}
    {operation : Operation} (h : operation.isCounted mode = true) (following : List String) :
    operationAt config line following = some operation ↔
      operation? config line = some operation := by
  apply operationAt_eq_some_iff following
  · rintro low rfl
    cases h
  · rintro rfl
    cases h
  · rintro amount rfl
    unfold StackPointer.ofAmount at h
    split at h <;> cases h

theorem appliedSinceLabel_label (config : Config) (mode : PassMode) (past : List Visit)
    {v : Visit} (h : v.isLabel = true) : appliedSinceLabel config mode (past ++ [v]) = [] := by
  simp [appliedSinceLabel, h]

theorem appliedSinceLabel_body (config : Config) (mode : PassMode) (past : List Visit)
    {v : Visit} (h : v.isLabel = false) :
    appliedSinceLabel config mode (past ++ [v]) =
      appliedSinceLabel config mode past ++ (v.applied? config mode).toList := by
  rw [appliedSinceLabel, List.rtakeWhile_concat, if_pos (by simp [h]), List.filterMap_append,
    appliedSinceLabel]
  cases hv : v.applied? config mode with
  | none => simp [hv]
  | some a => simp [hv]

theorem applications_cons (operation : Operation) (a : Applied) (rest : List Applied) :
    applications operation (a :: rest) =
      applications operation rest + if a.operation = operation then 1 else 0 := by
  simp [applications, List.countP_cons]

theorem applications_append (operation : Operation) (applied more : List Applied) :
    applications operation (applied ++ more) =
      applications operation applied + applications operation more :=
  List.countP_append ..

theorem totalDrift_cons (config : Config) (a : Applied) (rest : List Applied) :
    totalDrift config (a :: rest) = a.drift config + totalDrift config rest :=
  List.sum_cons ..

theorem totalDrift_eq_zero {config : Config} {applied : List Applied}
    (h : ∀ a ∈ applied, a.drift config = 0) : totalDrift config applied = 0 := by
  apply List.sum_eq_zero
  intro drift hdrift
  obtain ⟨a, ha, rfl⟩ := List.mem_map.1 hdrift
  exact h a ha

theorem sum_net (config : Config) (applied : List Applied) :
    (applied.map (·.net config)).sum = applications .push applied - applications .pop applied +
      config.returnAddressBytes * applications .selfCall applied + totalDrift config applied := by
  induction applied with
  | nil => simp [applications, totalDrift]
  | cons a rest ih =>
    rw [List.map_cons, List.sum_cons, ih, a.net_eq config, applications_cons, applications_cons,
      applications_cons, totalDrift_cons]
    push_cast
    ring

/-! ### The books of one routine -/

namespace Routine

/-- The figures of a routine are accounted for by the operations that were applied to it. -/
structure Books (config : Config) (mode : PassMode) (r : Routine) (applied : List Applied) :
    Prop where
  balance : r.stackUsed = r.reserved + (applied.map (·.net config)).sum
  /-- Nothing that is counted was left out. -/
  complete : ∀ operation : Operation, operation.isCounted mode = true →
    applications operation applied = r.occurrences config operation
  growing : mode.follows = false → ∀ a ∈ applied, a.operation ≠ .pop ∧ a.isRelease = false

variable {config : Config} {mode : PassMode} {r : Routine} {line : String}
variable {following : List String}

theorem operate_of_isCounted (config : Config) (r : Routine) {operation : Operation}
    (h : operation.isCounted mode = true) :
    ∃ after warning, r.operate config mode operation = .changed after warning := by
  cases operation with
  | push | selfCall => exact ⟨_, _, rfl⟩
  | pop =>
    have hmode : mode.follows = true := h
    exact ⟨_, _, by rw [operate, if_pos hmode]⟩
  | _ => cases h

theorem applied?_eq_some {a : Applied} (h : r.applied? config mode line following = some a) :
    ∃ after warning, a.held = r.reserved ∧
      Line.operationAt config line following = some a.operation ∧
      r.change? config mode line following = some after ∧
      r.operate config mode a.operation = .changed after warning := by
  obtain ⟨operation, hoperation, h⟩ := Option.bind_eq_some_iff.1 h
  obtain ⟨after, hchange, h⟩ := Option.bind_eq_some_iff.1 h
  cases h
  obtain ⟨operation', warning, hoperation', hchanged⟩ := change?_eq_some hchange
  rw [hoperation, Option.some.injEq] at hoperation'
  rw [← hoperation'] at hchanged
  exact ⟨after, warning, rfl, hoperation, hchange, hchanged⟩

theorem applied?_eq_none (h : r.applied? config mode line following = none) :
    r.change? config mode line following = none := by
  cases hchange : r.change? config mode line following with
  | none => rfl
  | some after =>
    obtain ⟨operation, warning, hoperation, -⟩ := change?_eq_some hchange
    simp [applied?, hoperation, hchange] at h

theorem applications_applied? {operation : Operation} (h : operation.isCounted mode = true) :
    applications operation (r.applied? config mode line following).toList =
      if Line.operation? config line = some operation then 1 else 0 := by
  have hreads : Line.operationAt config line following = some operation ↔
      Line.operation? config line = some operation := Line.operationAt_of_isCounted h following
  cases happlied : r.applied? config mode line following with
  | some a =>
    obtain ⟨after, warning, -, hoperation, -⟩ := applied?_eq_some happlied
    rw [hoperation, Option.some.injEq] at hreads
    simp [applications, ← hreads]
  | none =>
    have hne : Line.operation? config line ≠ some operation := by
      intro hoperation
      obtain ⟨after, warning, hchanged⟩ := r.operate_of_isCounted config h
      have hchange := applied?_eq_none happlied
      rw [change?, hreads.2 hoperation] at hchange
      simp [hchanged] at hchange
    simp [applications, hne]

theorem occurrences_pass (operation : Operation) :
    (r.pass config mode line following).occurrences config operation =
      r.occurrences config operation +
        if Line.operation? config line = some operation then 1 else 0 := by
  simp [occurrences, List.countP_singleton]

/-- An applied operation moves the balance by what is written down about it. -/
theorem Applies.balance {operation : Operation} {after : Routine} {warning : Option LineWarning}
    (h : Applies config mode r operation after warning) :
    after.stackUsed - after.reserved =
      r.stackUsed - r.reserved + Applied.net config ⟨operation, r.reserved⟩ := by
  cases h with
  | push => simp only [Applied.net]; omega
  | selfCall => simp only [Applied.net]; omega
  | reserve hreservation hreserved =>
    have hnet : Applied.net config ⟨operation, r.reserved⟩ = 0 := by
      cases operation with
      | registerSave | stackDecrement => rfl
      | _ => cases hreservation
    rw [hnet]
    simp only [hreserved]
    omega
  | call | jump => simp only [Applied.net, addTarget]; omega
  | pop => simp only [Applied.net]; omega
  | release => simp only [Applied.net, Applied.drift]; omega
  | restore => simp only [Applied.net]; omega

/-- A line moves the balance by what was applied there. -/
theorem balance_pass (config : Config) (mode : PassMode) (r : Routine) (line : String)
    (following : List String) :
    (r.pass config mode line following).stackUsed - (r.pass config mode line following).reserved =
      r.stackUsed - r.reserved +
        ((r.applied? config mode line following).toList.map (·.net config)).sum := by
  cases happlied : r.applied? config mode line following with
  | none =>
    rw [pass_of_no_change (applied?_eq_none happlied)]
    simp
  | some a =>
    obtain ⟨after, warning, hheld, -, hchange, hchanged⟩ := applied?_eq_some happlied
    have hmoved := (applies_of_operate hchanged).balance
    rw [← hheld] at hmoved
    rw [pass_of_change hchange, hmoved]
    simp [← hheld]

theorem Applies.growing {operation : Operation} {after : Routine} {warning : Option LineWarning}
    (h : Applies config mode r operation after warning) (hmode : mode.follows = false) :
    operation ≠ .pop ∧ Applied.isRelease ⟨operation, r.reserved⟩ = false := by
  cases h with
  | reserve hreservation =>
    cases operation with
    | registerSave | stackDecrement => simp [Applied.isRelease]
    | _ => cases hreservation
  | pop h | release h | restore _ h => rw [hmode] at h; cases h
  | _ => simp [Applied.isRelease]

theorem books_of_label (config : Config) (mode : PassMode) {label : String} {address : Nat}
    {name : String} (h : Line.label? label.toList = some (address, name)) (index : Int) :
    Books config mode { name, start := address, lineStart := index, lines := #[label] } [] where
  balance := rfl
  complete operation _ := by
    simp [applications, occurrences, Line.operation?, Line.classify, Line.classifyBy, h]
  growing := by simp

theorem Books.pass {applied : List Applied} (h : r.Books config mode applied) (line : String)
    (following : List String) :
    (r.pass config mode line following).Books config mode
      (applied ++ (r.applied? config mode line following).toList) where
  balance := by
    have hbalance := h.balance
    have hmoved := r.balance_pass config mode line following
    rw [List.map_append, List.sum_append]
    linarith
  complete operation hcounted := by
    rw [applications_append, applications_applied? hcounted, occurrences_pass,
      h.complete operation hcounted]
  growing hmode a ha := by
    rcases List.mem_append.1 ha with ha | ha
    · exact h.growing hmode a ha
    · have happlied := Option.mem_toList.1 ha
      obtain ⟨after, warning, -, -, -, hchanged⟩ := applied?_eq_some happlied
      exact (applies_of_operate hchanged).growing hmode

theorem Books.totalDrift_full {applied : List Applied} (h : r.Books config .full applied) :
    totalDrift config applied = 0 := by
  apply totalDrift_eq_zero
  intro a ha
  have hrelease := (h.growing rfl a ha).2
  unfold Applied.isRelease at hrelease
  unfold Applied.drift
  split at hrelease
  · cases hrelease
  · rfl

theorem Books.pops_full {applied : List Applied} (h : r.Books config .full applied) :
    applications .pop applied = 0 := by
  rw [applications, List.countP_eq_zero]
  intro a ha
  simpa using (h.growing rfl a ha).1

theorem Books.stackUsed_full {applied : List Applied} (h : r.Books config .full applied) :
    r.stackUsed = r.occurrences config .push +
      config.returnAddressBytes * r.occurrences config .selfCall + r.reserved := by
  rw [h.balance, sum_net, h.totalDrift_full, h.pops_full, h.complete .push rfl,
    h.complete .selfCall rfl]
  push_cast
  ring

theorem Books.stackUsed_bounded {stop : Int} {applied : List Applied}
    (h : r.Books config (.bounded stop) applied) (hdrift : totalDrift config applied = 0) :
    r.stackUsed = r.occurrences config .push - r.occurrences config .pop +
      config.returnAddressBytes * r.occurrences config .selfCall + r.reserved := by
  rw [h.balance, sum_net, hdrift, h.complete .push rfl, h.complete .pop rfl,
    h.complete .selfCall rfl]
  ring

end Routine

/-! ### The books along a pass -/

namespace PassState

def Reported (s : PassState) : Prop := ∃ d ∈ s.diagnostics, d.code = "release-mismatch"

/-- Every routine that the pass has opened has its books. Those of the current one are what was
applied since its label, and drift only where that was reported. -/
structure Audited (config : Config) (mode : PassMode) (s : PassState) (past : List Visit) :
    Prop where
  books : ∀ r ∈ s.opened, ∃ applied, r.Books config mode applied
  current : ∀ r ∈ s.opened.head?, r.Books config mode (appliedSinceLabel config mode past)
  reported : ∀ a ∈ appliedSinceLabel config mode past, a.drift config ≠ 0 → s.Reported

variable {config : Config} {mode : PassMode}

theorem Reported.step {s : PassState} (h : s.Reported) (line : String) (following : List String) :
    (s.step config mode line following).Reported := by
  obtain ⟨d, hd, hcode⟩ := h
  exact ⟨d, List.mem_append_left _ hd, hcode⟩

theorem reported_of_mismatch {s : PassState} {line : String} {following : List String}
    {after : Routine} {routine released held : String}
    (h : s.react config mode line following =
      .changed after (some (.releaseMismatch routine released held))) :
    (s.step config mode line following).Reported := by
  have hlogged : (s.step config mode line following).diagnostics = s.diagnostics ++
      s.diagnose line (.changed after (some (.releaseMismatch routine released held))) := by
    rw [← h]
    rfl
  unfold Reported
  rw [hlogged]
  exact ⟨_, List.mem_append_right _ (List.mem_singleton.2 rfl), rfl⟩

theorem reported_of_drift {s : PassState} {r : Routine} {earlier : List Routine}
    (hopened : s.opened = r :: earlier) {line : String} {following : List String} {a : Applied}
    (happlied : r.applied? config mode line following = some a) (hdrift : a.drift config ≠ 0) :
    (s.step config mode line following).Reported := by
  obtain ⟨after, warning, hheld, hoperation, -, hchanged⟩ := Routine.applied?_eq_some happlied
  have hreact := react_of_operationAt mode hopened hoperation
  obtain ⟨operation, held⟩ := a
  cases operation with
  | stackIncrement amount =>
    simp only [Applied.drift] at hdrift hheld
    cases Routine.applies_of_operate hchanged with
    | release hmode hwarning =>
      obtain ⟨released, held, rfl⟩ := hwarning (by omega)
      exact reported_of_mismatch (hreact.trans hchanged)
    | reserve hreservation => cases hreservation
  | _ => exact absurd rfl hdrift

theorem Audited.step {s : PassState} {past : List Visit} (h : s.Audited config mode past)
    (line : String) (following : List String) :
    (s.step config mode line following).Audited config mode (past ++ [⟨s, line, following⟩]) := by
  cases hlabel : Line.label? line.toList with
  | some label =>
    have hisLabel : Visit.isLabel ⟨s, line, following⟩ = true := by
      simp [Visit.isLabel, Line.isLabel, hlabel]
    have hfresh := Routine.books_of_label config mode hlabel s.index
    have hopened := step_label config mode hlabel s following
    refine ⟨?_, ?_, ?_⟩
    · rw [hopened]
      intro r hr
      rcases List.mem_cons.1 hr with rfl | hr
      · exact ⟨[], hfresh⟩
      · exact h.books r hr
    · rw [hopened, appliedSinceLabel_label config mode past hisLabel]
      rintro r ⟨⟩
      exact hfresh
    · rw [appliedSinceLabel_label config mode past hisLabel]
      simp
  | none =>
    have hbody : Visit.isLabel ⟨s, line, following⟩ = false := Line.isLabel_eq_false.2 hlabel
    cases hopened : s.opened with
    | nil =>
      have happlied : Visit.applied? config mode ⟨s, line, following⟩ = none := by
        simp [Visit.applied?, Visit.current?, hopened]
      have hstep := step_before_label config mode hlabel hopened following
      refine ⟨by simp [hstep], by simp [hstep], ?_⟩
      rw [appliedSinceLabel_body config mode past hbody, happlied]
      intro a ha hdrift
      exact (h.reported a (by simpa using ha) hdrift).step line following
    | cons r earlier =>
      have happlied : Visit.applied? config mode ⟨s, line, following⟩ =
          r.applied? config mode line following := by
        simp [Visit.applied?, Visit.current?, hopened]
      have hcurrent := (h.current r (by simp [hopened])).pass line following
      have hstep := step_pass config mode hbody hopened following
      rw [← happlied, ← appliedSinceLabel_body config mode past hbody] at hcurrent
      refine ⟨?_, ?_, ?_⟩
      · rw [hstep]
        intro q hq
        rcases List.mem_cons.1 hq with rfl | hq
        · exact ⟨_, hcurrent⟩
        · exact h.books q (hopened ▸ List.mem_cons_of_mem _ hq)
      · rw [hstep]
        rintro q ⟨⟩
        exact hcurrent
      · rw [appliedSinceLabel_body config mode past hbody, happlied]
        intro a ha hdrift
        rcases List.mem_append.1 ha with ha | ha
        · exact (h.reported a ha hdrift).step line following
        · exact reported_of_drift hopened (Option.mem_toList.1 ha) hdrift

theorem audited_start (config : Config) (mode : PassMode) :
    ({} : PassState).Audited config mode [] := by
  refine ⟨by simp, by simp, ?_⟩
  intro a ha
  cases ha

/-- The books hold at every line of a pass and at its end. -/
theorem audited (config : Config) (mode : PassMode) (lines : List String) :
    (∀ done v later, visits config mode {} lines = done ++ v :: later →
        v.state.Audited config mode done) ∧
      (run config mode {} lines).Audited config mode (visits config mode {} lines) := by
  have hstep : ∀ (s : PassState) past line following, s.Audited config mode past →
      (s.step config mode line following).Audited config mode
        (past ++ [⟨s, line, following⟩]) :=
    fun s past line following h => h.step line following
  simpa using visits_invariant hstep {} [] (audited_start config mode) lines

theorem Audited.no_drift {s : PassState} {past : List Visit}
    (h : s.Audited config mode past) (hlog : Log.byCode s.diagnostics "release-mismatch" = []) :
    totalDrift config (appliedSinceLabel config mode past) = 0 := by
  apply totalDrift_eq_zero
  intro a ha
  by_contra hdrift
  obtain ⟨d, hd, hcode⟩ := h.reported a ha hdrift
  have hfound : d ∈ Log.byCode s.diagnostics "release-mismatch" := by
    simp [Log.byCode, hd, hcode]
  rw [hlog] at hfound
  cases hfound

end PassState

/-- After every line of a pass, the bytes that the current routine uses are the pushes less the pops
and the return addresses of its calls to the next instruction, the reserved block and the drift of
the releases, each counted since its label. All pushes and such calls in its lines count, pops only
in a bounded pass, and a full pass applies no releases. So the lines of a routine tell what a full
pass finds, and what a bounded pass finds if it reports no release that does not fit. -/
theorem stackUsed_accounted (config : Config) :
    (∀ (mode : PassMode) (lines : List String) (done : List Visit) (v : Visit)
        (later : List Visit), PassState.visits config mode {} lines = done ++ v :: later →
      ∀ (g : Routine) (earlier : List Routine), (v.after config mode).opened = g :: earlier →
        let applied := appliedSinceLabel config mode (done ++ [v])
        g.stackUsed = applications .push applied - applications .pop applied +
            config.returnAddressBytes * applications .selfCall applied + g.reserved +
            totalDrift config applied ∧
          (∀ operation : Operation, operation.isCounted mode = true →
            applications operation applied = g.occurrences config operation) ∧
          (mode = .full → applications .pop applied = 0 ∧ ∀ a ∈ applied, a.isRelease = false)) ∧
      (∀ (lines : List String), ∀ f ∈ (analyze config lines).routines,
        f.stackUsed = f.occurrences config .push +
          config.returnAddressBytes * f.occurrences config .selfCall + f.reserved) ∧
      ∀ (r : Routine) (stop : Int),
        Log.byCode (analyzePart config r stop).diagnostics "release-mismatch" = [] →
        let f := (analyzePart config r stop).routine
        f.stackUsed = f.occurrences config .push - f.occurrences config .pop +
          config.returnAddressBytes * f.occurrences config .selfCall + f.reserved := by
  refine ⟨?_, ?_, ?_⟩
  · intro mode lines done v later hsplit g earlier hopened applied
    have hbefore := (PassState.audited config mode lines).1 done v later hsplit
    have hbooks := (hbefore.step v.line v.following).current g (by
      rw [← Visit.after, hopened]
      rfl)
    refine ⟨?_, hbooks.complete, ?_⟩
    · rw [hbooks.balance, sum_net]
      ring
    · rintro rfl
      exact ⟨hbooks.pops_full, fun a ha => (hbooks.growing rfl a ha).2⟩
  · intro lines f hf
    have hend := (PassState.audited config .full lines).2
    obtain ⟨applied, hbooks⟩ := hend.books f (mem_opened_of_mem_analyze hf)
    exact hbooks.stackUsed_full
  · intro r stop hlog
    have hend := (PassState.audited config (.bounded stop) r.lines.toList).2
    have hdrift := hend.no_drift hlog
    unfold analyzePart
    cases hopened : (PassState.run config (.bounded stop) {} r.lines.toList).opened with
    | nil => simp [hopened, Routine.occurrences]
    | cons f earlier =>
      have hbooks := hend.current f (by rw [hopened]; rfl)
      simpa [hopened] using hbooks.stackUsed_bounded hdrift

/-! ### A frame that is not given back in full

The block of 2048 bytes is released by 1792 bytes only. -/

def deepFrame : List String :=
  ["600 <deep>:", "600:\tcf 93\tpush\tr28", "602:\t00 d0\trcall\t.+0\t; 0x604",
   "604:\tc0 50\tsubi\tr28, 0x00\t; 0", "606:\td8 40\tsbci\tr29, 0x08\t; 8",
   "608:\t0f b6\tin\tr0, 0x3f\t; 63", "60a:\tf8 94\tcli", "60c:\tde bf\tout\t0x3e, r29\t; 62",
   "60e:\tc0 50\tsubi\tr28, 0x00\t; 0", "610:\td9 4f\tsbci\tr29, 0xF9\t; 249",
   "612:\t0f b6\tin\tr0, 0x3f\t; 63", "614:\tf8 94\tcli", "616:\tde bf\tout\t0x3e, r29\t; 62",
   "618:\tcf 91\tpop\tr28"]

theorem visits_deepFrame : PassState.visits {} (.bounded 0x700) {} deepFrame ≠ [] := by
  decide +kernel

def deepFrameEnd : Visit :=
  (PassState.visits {} (.bounded 0x700) {} deepFrame).getLast visits_deepFrame

theorem stackUsed_accounted_deepFrame :
    (∃ done v g, PassState.visits {} (.bounded 0x700) {} deepFrame = done ++ [v] ∧
        (v.after {} (.bounded 0x700)).opened = [g] ∧
        g.stackUsed =
          applications .push (appliedSinceLabel {} (.bounded 0x700) (done ++ [v])) -
            applications .pop (appliedSinceLabel {} (.bounded 0x700) (done ++ [v])) +
            2 * applications .selfCall (appliedSinceLabel {} (.bounded 0x700) (done ++ [v])) +
            g.reserved + totalDrift {} (appliedSinceLabel {} (.bounded 0x700) (done ++ [v])) ∧
        g.stackUsed = 258 ∧
        totalDrift {} (appliedSinceLabel {} (.bounded 0x700) (done ++ [v])) = 256) ∧
      ∃ f, (analyze {} deepFrame).routines = [f] ∧ f.stackUsed = 2051 ∧
        f.stackUsed = f.occurrences {} .push + 2 * f.occurrences {} .selfCall + f.reserved ∧
        Log.byCode (analyzePart {} f 0x60e).diagnostics "release-mismatch" = [] ∧
        (analyzePart {} f 0x60e).routine.stackUsed =
          (analyzePart {} f 0x60e).routine.occurrences {} .push -
            (analyzePart {} f 0x60e).routine.occurrences {} .pop +
            2 * (analyzePart {} f 0x60e).routine.occurrences {} .selfCall +
            (analyzePart {} f 0x60e).routine.reserved := by
  constructor
  · have hsplit := (List.dropLast_append_getLast visits_deepFrame).symm
    have hused : (deepFrameEnd.after {} (.bounded 0x700)).opened.map Routine.stackUsed = [258] := by
      decide +kernel
    obtain ⟨g, hg, hused⟩ := List.map_eq_singleton_iff.1 hused
    refine ⟨_, _, g, hsplit, hg, ?_, hused, ?_⟩
    · exact ((stackUsed_accounted {}).1 _ _ _ _ _ hsplit g [] hg).1
    · rw [← hsplit]
      decide +kernel
  · have hused : (analyze {} deepFrame).routines.map Routine.stackUsed = [2051] := by
      decide +kernel
    have hlog : ∀ f ∈ (analyze {} deepFrame).routines,
        Log.byCode (analyzePart {} f 0x60e).diagnostics "release-mismatch" = [] := by
      decide +kernel
    obtain ⟨f, hf, hused⟩ := List.map_eq_singleton_iff.1 hused
    have hmem : f ∈ (analyze {} deepFrame).routines := by rw [hf]; exact List.mem_singleton_self f
    exact ⟨f, hf, hused, (stackUsed_accounted {}).2.1 deepFrame f hmem,
      hlog f hmem, (stackUsed_accounted {}).2.2 f 0x60e (hlog f hmem)⟩

end StackDepth
