import Mathlib
import StackDepth.Proofs.Analysis.Visits

/-!
# How a full pass divides a listing

The label lines of a listing divide it. The lines from a label up to the next one are the section
of that label, and what comes before the first label is in no section. A full pass makes a routine
of each section whose label is the first with its address. Sections of later labels with the same
address are passed over: they go to no routine of the table, and each of them is reported once.

The pass decides line by line which routine owns a line, and no line that it cannot make sense of
may disturb this. So the division is told without the pass (`labels`, `LabelLine.extent`), and the
pass is shown to keep to it after any number of lines (`PassState.Records`).
-/
namespace StackDepth

/-! ### Labels of a listing -/

/-- A label line and where it stands. -/
structure LabelLine where
  index : Nat
  text : String
  address : Nat
  name : String
deriving DecidableEq

def labelLine? (index : Nat) (line : String) : Option LabelLine :=
  (Line.label? line.toList).map fun label => ⟨index, line, label.1, label.2⟩

/-- The label lines of a listing, in its order. -/
def labels (listing : List String) : List LabelLine :=
  listing.zipIdx.filterMap fun entry => labelLine? entry.2 entry.1

def firstLabel? (listing : List String) (address : Int) : Option LabelLine :=
  (labels listing).find? fun l => (l.address : Int) = address

/-- Whether there is a label line at the index. -/
def labelAt (listing : List String) (k : Nat) : Bool := listing[k]?.any Line.isLabel

namespace LabelLine

/-- The label line and the lines behind it, up to the next label or the end. -/
def extent (listing : List String) (l : LabelLine) : List String :=
  l.text :: untilLabel (listing.drop (l.index + 1))

/-- What a label tells about a routine: where it stands, its address and its name. -/
def heading (l : LabelLine) : Int × Int × String := (l.index, l.address, l.name)

/-- The error about a label whose address the other one has taken. -/
def clash (l first : LabelLine) : Diagnostic where
  severity := .error
  code := "duplicate-function"
  message := (LineFault.duplicateRoutine l.name l.address first.name).message
  lineIndex := some l.index
  lineText := some l.text

/-- The error about a label, if another one with its address comes first. -/
def clash? (listing : List String) (l : LabelLine) : Option Diagnostic :=
  match firstLabel? listing l.address with
  | none => none
  | some first => if first = l then none else some (l.clash first)

/-- The label is the last one up to the line at the index. -/
structure Covers (listing : List String) (l : LabelLine) (k : Nat) : Prop where
  mem : l ∈ labels listing
  le : l.index ≤ k
  last : ∀ j, l.index < j → j ≤ k → labelAt listing j = false

end LabelLine

variable {listing : List String} {line : String} {l : LabelLine}

theorem mem_labels_iff : l ∈ labels listing ↔
    listing[l.index]? = some l.text ∧ Line.label? l.text.toList = some (l.address, l.name) := by
  simp only [labels, List.mem_filterMap, Prod.exists, List.mem_zipIdx_iff_getElem?]
  constructor
  · rintro ⟨line, index, hline, hlabel⟩
    obtain ⟨label, hsome, rfl⟩ := Option.map_eq_some_iff.1 hlabel
    exact ⟨hline, hsome⟩
  · rintro ⟨hline, hlabel⟩
    exact ⟨l.text, l.index, hline, Option.map_eq_some_iff.2 ⟨_, hlabel, rfl⟩⟩

theorem index_lt_length (h : l ∈ labels listing) : l.index < listing.length :=
  (List.getElem?_eq_some_iff.1 (mem_labels_iff.1 h).1).1

theorem labelAt_index (h : l ∈ labels listing) : labelAt listing l.index = true := by
  obtain ⟨hline, hlabel⟩ := mem_labels_iff.1 h
  simp [labelAt, hline, Line.isLabel, hlabel]

/-- There is one label line at an index at most. -/
theorem label_eq_of_index_eq {m : LabelLine} (hl : l ∈ labels listing) (hm : m ∈ labels listing)
    (h : l.index = m.index) : l = m := by
  obtain ⟨hline, hlabel⟩ := mem_labels_iff.1 hl
  obtain ⟨hline', hlabel'⟩ := mem_labels_iff.1 hm
  rw [← h, hline, Option.some.injEq] at hline'
  rw [← hline', hlabel, Option.some.injEq, Prod.mk.injEq] at hlabel'
  obtain ⟨index, text, address, name⟩ := l
  obtain ⟨index', text', address', name'⟩ := m
  simp only at h hline' hlabel'
  rw [h, hline', hlabel'.1, hlabel'.2]

theorem LabelLine.Covers.index_le {m : LabelLine} {k : Nat} (hl : l.Covers listing k)
    (hm : m.Covers listing k) : l.index ≤ m.index := by
  by_contra hlt
  have hlabel := hm.last l.index (Nat.lt_of_not_le hlt) hl.le
  rw [labelAt_index hl.mem] at hlabel
  cases hlabel

theorem LabelLine.Covers.unique {m : LabelLine} {k : Nat} (hl : l.Covers listing k)
    (hm : m.Covers listing k) : l = m :=
  label_eq_of_index_eq hl.mem hm.mem (Nat.le_antisymm (hl.index_le hm) (hm.index_le hl))

theorem labels_append (listing : List String) (line : String) :
    labels (listing ++ [line]) = labels listing ++ (labelLine? listing.length line).toList := by
  rw [labels, List.zipIdx_append, List.filterMap_append, List.zipIdx_singleton, Nat.zero_add,
    List.filterMap_eq_flatMap_toList _ [(line, listing.length)], List.flatMap_singleton]
  rfl

theorem labels_append_body (h : Line.label? line.toList = none) (listing : List String) :
    labels (listing ++ [line]) = labels listing := by
  simp [labels_append, labelLine?, h]

theorem pairwise_labels (listing : List String) :
    (labels listing).Pairwise fun l m => l.index < m.index := by
  induction listing using List.reverseRecOn with
  | nil => exact List.Pairwise.nil
  | append_singleton listing line ih =>
    rw [labels_append, List.pairwise_append]
    refine ⟨ih, ?_, ?_⟩
    · cases labelLine? listing.length line <;> simp
    · intro l hl m hm
      obtain ⟨label, -, rfl⟩ := Option.map_eq_some_iff.1 (Option.mem_toList.1 hm)
      exact index_lt_length hl

/-! ### Labels with one address -/

theorem firstLabel?_mem {address : Int} (h : firstLabel? listing address = some l) :
    l ∈ labels listing :=
  List.mem_of_find?_eq_some h

theorem exists_firstLabel? (h : l ∈ labels listing) :
    ∃ first, firstLabel? listing l.address = some first := by
  rw [← Option.isSome_iff_exists, firstLabel?, List.find?_isSome]
  exact ⟨l, h, by simp⟩

theorem firstLabel?_append (h : labelLine? listing.length line = some l) (address : Int) :
    firstLabel? (listing ++ [line]) address =
      (firstLabel? listing address).or (if (l.address : Int) = address then some l else none) := by
  rw [firstLabel?, labels_append, h, List.find?_append, firstLabel?]
  by_cases haddress : (l.address : Int) = address <;> simp [haddress]

/-- Earlier labels keep their errors when a label comes behind them, and the new one has an error if
its address is taken. -/
theorem filterMap_clash?_append (h : labelLine? listing.length line = some l) :
    (labels (listing ++ [line])).filterMap (LabelLine.clash? (listing ++ [line])) =
      (labels listing).filterMap (LabelLine.clash? listing) ++
        ((firstLabel? listing l.address).map l.clash).toList := by
  have hbefore : ∀ m ∈ labels listing,
      LabelLine.clash? (listing ++ [line]) m = LabelLine.clash? listing m := by
    intro m hm
    obtain ⟨first, hfirst⟩ := exists_firstLabel? hm
    rw [LabelLine.clash?, LabelLine.clash?, firstLabel?_append h, hfirst, Option.some_or]
  have hlast : LabelLine.clash? (listing ++ [line]) l =
      (firstLabel? listing l.address).map l.clash := by
    rw [LabelLine.clash?, firstLabel?_append h, if_pos rfl]
    cases hfirst : firstLabel? listing l.address with
    | none => simp
    | some first =>
      have hne : first ≠ l := by
        rintro rfl
        obtain ⟨label, -, rfl⟩ := Option.map_eq_some_iff.1 h
        exact Nat.lt_irrefl _ (index_lt_length (firstLabel?_mem hfirst))
      simp [hne]
  rw [labels_append, h, List.filterMap_append, List.filterMap_congr hbefore, ← hlast,
    Option.toList_some, List.filterMap_eq_flatMap_toList _ [l], List.flatMap_singleton]

/-! ### The state of a pass -/

namespace Routine

def heading (r : Routine) : Int × Int × String := (r.lineStart, r.start, r.name)

/-- The line at the index of the listing is one of those that the routine owns. -/
def Owns (r : Routine) (k : Nat) : Prop := r.lineStart ≤ k ∧ k < r.lineStart + r.lines.size

theorem pass_heading (config : Config) (mode : PassMode) (r : Routine) (line : String)
    (following : List String) : (r.pass config mode line following).heading = r.heading := by
  obtain ⟨used, reserved, targets, h⟩ := r.pass_eq config mode line following
  rw [h]
  rfl

theorem follow_heading (config : Config) (mode : PassMode) (r : Routine) (lines : List String) :
    (r.follow config mode lines).heading = r.heading := by
  induction lines generalizing r with
  | nil => rfl
  | cons line rest ih =>
    rw [follow]
    split
    · rfl
    · rw [ih, pass_heading]

theorem reserve_ne_duplicate (r : Routine) (amount : Int) {name holder : String} {address : Nat} :
    r.reserve amount ≠ .faulted (.duplicateRoutine name address holder) := by
  unfold reserve
  split
  · simp
  · split <;> simp

theorem release_ne_duplicate (config : Config) (r : Routine) (amount : Nat)
    {name holder : String} {address : Nat} :
    r.release config amount ≠ .faulted (.duplicateRoutine name address holder) := by
  unfold release
  simp only
  split
  · simp
  · split <;> simp

theorem jump_ne_duplicate (config : Config) (r : Routine) (target : Nat) (destination : String)
    (offset : Option Nat) {name holder : String} {address : Nat} :
    r.jump config target destination offset ≠
      .faulted (.duplicateRoutine name address holder) := by
  unfold jump
  split <;> simp

/-- Only a label can be reported as a duplicate. -/
theorem operate_ne_duplicate (config : Config) (mode : PassMode) (r : Routine)
    (operation : Operation) {name holder : String} {address : Nat} :
    r.operate config mode operation ≠ .faulted (.duplicateRoutine name address holder) := by
  cases operation with
  | registerSave offset =>
    rw [operate, saveRegisters]
    split
    · simp
    · exact r.reserve_ne_duplicate _
    · simp
  | stackDecrement amount =>
    rw [operate]
    split
    · simp
    · exact r.reserve_ne_duplicate _
  | stackIncrement amount =>
    rw [operate]
    split
    · exact r.release_ne_duplicate config amount
    · simp
  | jump target destination offset => exact r.jump_ne_duplicate config target destination offset
  | pop | registerRestore =>
    rw [operate]
    split <;> simp
  | push | selfCall | call | frameLoad | stackLow | other => simp [operate]

end Routine

namespace PassState

variable {config : Config} {mode : PassMode} {s : PassState} {passed : List String}

/-- The labels that were reported as duplicates. -/
def duplicates (s : PassState) : Log := Log.byCode s.diagnostics "duplicate-function"

/-- The pass has come through the lines, has opened one routine for each of their labels, and has
reported those whose address was taken. -/
structure Records (s : PassState) (passed : List String) : Prop where
  index : s.index = passed.length
  headings : s.opened.reverse.map Routine.heading = (labels passed).map LabelLine.heading
  duplicates : s.duplicates = (labels passed).filterMap (LabelLine.clash? passed)

/-- The routine that holds an address is that of the first label with the address. -/
theorem Records.holder? (h : s.Records passed) (address : Int) :
    (s.holder? address).map Routine.heading =
      (firstLabel? passed address).map LabelLine.heading := by
  have hfind := congrArg (List.find? fun heading => decide (heading.2.1 = address)) h.headings
  rw [List.find?_map, List.find?_map] at hfind
  exact hfind

theorem Records.name_holder? (h : s.Records passed) (address : Int) :
    (s.holder? address).map Routine.name = (firstLabel? passed address).map LabelLine.name := by
  have hname := congrArg (Option.map fun heading => heading.2.2) (h.holder? address)
  rwa [Option.map_map, Option.map_map] at hname

theorem byCode_diagnose_body (hlabel : Line.label? line.toList = none)
    (s : PassState) (following : List String) :
    Log.byCode (s.diagnose line (s.react config mode line following)) "duplicate-function" =
      [] := by
  rcases react_cases hlabel s following with hreact | ⟨e, hreact⟩ | ⟨r, -, operation, -, hreact⟩
  · rw [hreact]
    rfl
  · rw [hreact]
    rfl
  · have hwithin := r.operate_within config mode operation
    rw [hreact]
    cases hreaction : r.operate config mode operation with
    | ignored => rfl
    | opened routine clash =>
      rw [hreaction] at hwithin
      exact hwithin.elim
    | faulted fault =>
      cases fault with
      | duplicateRoutine name address holder =>
        exact absurd hreaction (r.operate_ne_duplicate config mode operation)
      | missingFrameLoad | doubleReservation | numeral => rfl
    | changed after warning =>
      cases warning with
      | none => rfl
      | some warning => cases warning <;> rfl

theorem map_heading_step_body (hlabel : Line.label? line.toList = none) (s : PassState)
    (following : List String) :
    (s.step config mode line following).opened.map Routine.heading =
      s.opened.map Routine.heading := by
  cases hopened : s.opened with
  | nil => rw [step_before_label config mode hlabel hopened]
  | cons r earlier =>
    rw [step_pass config mode (Line.isLabel_eq_false.2 hlabel) hopened, List.map_cons,
      List.map_cons, Routine.pass_heading]

/-- A line that is no label adds nothing to the record. -/
theorem Records.step_body (h : s.Records passed) (hlabel : Line.label? line.toList = none)
    (following : List String) :
    (s.step config mode line following).Records (passed ++ [line]) := by
  constructor
  · rw [step, h.index, List.length_append, List.length_singleton]
  · rw [labels_append_body hlabel, List.map_reverse, map_heading_step_body hlabel,
      ← List.map_reverse, h.headings]
  · have hclash : LabelLine.clash? (passed ++ [line]) = LabelLine.clash? passed := by
      funext l
      rw [LabelLine.clash?, LabelLine.clash?, firstLabel?, labels_append_body hlabel, firstLabel?]
    rw [PassState.duplicates, step, Log.byCode_append, byCode_diagnose_body hlabel,
      List.append_nil, labels_append_body hlabel, hclash]
    exact h.duplicates

theorem Records.step_label (h : s.Records passed) {address : Nat} {name : String}
    (hlabel : Line.label? line.toList = some (address, name)) (following : List String) :
    (s.step config mode line following).Records (passed ++ [line]) := by
  have hline : labelLine? passed.length line = some ⟨passed.length, line, address, name⟩ := by
    simp [labelLine?, hlabel]
  constructor
  · rw [step, h.index, List.length_append, List.length_singleton]
  · rw [PassState.step_label config mode hlabel, List.reverse_cons, List.map_append, h.headings,
      labels_append, hline, Option.toList_some, List.map_append, h.index]
    rfl
  · have hreact : s.react config mode line following = s.openRoutine address name := by
      simp [react, Line.classifyAt_of_label config hlabel]
    have hclash : Log.byCode (s.diagnose line (s.openRoutine address name)) "duplicate-function" =
        ((firstLabel? passed address).map
          (LabelLine.clash ⟨passed.length, line, address, name⟩)).toList := by
      have hname := h.name_holder? address
      cases hfirst : firstLabel? passed address with
      | none =>
        rw [hfirst, Option.map_none, Option.map_eq_none_iff] at hname
        rw [openRoutine, hname]
        rfl
      | some first =>
        rw [hfirst, Option.map_some] at hname
        obtain ⟨holder, hholder, hname⟩ := Option.map_eq_some_iff.1 hname
        rw [openRoutine, hholder, Option.map_some, hname, diagnose, h.index]
        rfl
    rw [PassState.duplicates, step, Log.byCode_append, hreact, hclash,
      filterMap_clash?_append hline]
    exact congrArg (· ++ _) h.duplicates

theorem Records.step (h : s.Records passed) (line : String) (following : List String) :
    (s.step config mode line following).Records (passed ++ [line]) := by
  cases hlabel : Line.label? line.toList with
  | none => exact h.step_body hlabel following
  | some label => exact h.step_label hlabel following

theorem Records.run (h : s.Records passed) (rest : List String) :
    (s.run config .full rest).Records (passed ++ rest) := by
  induction rest generalizing s passed with
  | nil => rwa [List.append_nil]
  | cons line rest ih =>
    rw [List.append_cons]
    exact ih (h.step line rest)

theorem records_run (config : Config) (listing : List String) :
    (run config .full {} listing).Records listing := by
  have hstart : Records {} [] := ⟨rfl, rfl, rfl⟩
  exact hstart.run listing

end PassState

/-! ### The table -/

theorem firstByStart_sublist (routines : List Routine) :
    (firstByStart routines).Sublist routines := by
  induction routines with
  | nil => exact List.Sublist.refl _
  | cons r rest ih => exact (List.filter_sublist.trans ih).cons_cons r

theorem find?_firstByStart (routines : List Routine) (address : Int) :
    (firstByStart routines).find? (·.start = address) = routines.find? (·.start = address) := by
  induction routines with
  | nil => rfl
  | cons r rest ih =>
    by_cases hr : r.start = address
    · simp [firstByStart, hr]
    · rw [firstByStart, List.find?_cons_of_neg (by simpa using hr),
        List.find?_cons_of_neg (by simpa using hr), List.find?_filter, ← ih]
      apply List.find?_congr
      intro q _
      by_cases hq : q.start = address
      · simp [hq, Ne.symm hr]
      · simp [hq]

theorem find?_start_of_mem {routines : List Routine} (hnodup : (routines.map Routine.start).Nodup)
    {f : Routine} (h : f ∈ routines) : routines.find? (·.start = f.start) = some f := by
  induction routines with
  | nil => cases h
  | cons r rest ih =>
    rw [List.map_cons, List.nodup_cons] at hnodup
    rcases List.mem_cons.1 h with rfl | h
    · simp
    · have hne : r.start ≠ f.start :=
        fun heq => hnodup.1 (heq ▸ List.mem_map_of_mem h)
      rw [List.find?_cons_of_neg (by simpa using hne)]
      exact ih hnodup.2 h

/-! ### Sections and what routines own -/

/-- Between a label and a line of its section there is no other label. -/
theorem labelAt_extent {k : Nat} (h : k < l.index + (l.extent listing).length) {j : Nat}
    (hj : l.index < j) (hjk : j ≤ k) : labelAt listing j = false := by
  rw [LabelLine.extent, List.length_cons] at h
  obtain ⟨m, rfl⟩ : ∃ m, j = l.index + 1 + m := ⟨j - (l.index + 1), by omega⟩
  have hm : m < (untilLabel (listing.drop (l.index + 1))).length := by omega
  obtain ⟨tail, htail⟩ := isPrefix_untilLabel (listing.drop (l.index + 1))
  rw [labelAt, ← List.getElem?_drop, ← htail, List.getElem?_append_left hm,
    List.getElem?_eq_getElem hm, Option.any_some]
  exact isLabel_of_mem_untilLabel (List.getElem_mem hm)

/-- A routine of the table owns the section of its label. -/
theorem exists_label_of_mem_analyze {config : Config} {f : Routine}
    (h : f ∈ (analyze config listing).routines) :
    ∃ l ∈ labels listing, f.heading = l.heading ∧ f.lines.toList = l.extent listing := by
  obtain ⟨v, hv, r, hopens, rfl⟩ :=
    PassState.exists_visit_of_mem_opened (mem_opened_of_mem_analyze h)
  obtain ⟨k, hindex, hdrop⟩ := PassState.drop_of_mem_visits hv
  obtain ⟨⟨address, name⟩, hlabel, rfl⟩ := Option.map_eq_some_iff.1 hopens
  have hk : v.state.index = k := hindex.trans (Nat.zero_add k)
  have hline : listing[k]? = some v.line := by
    rw [← Nat.add_zero k, ← List.getElem?_drop, hdrop, List.getElem?_cons_zero]
  have hrest : listing.drop (k + 1) = v.following := by
    rw [← List.drop_drop, hdrop, List.drop_one, List.tail_cons]
  refine ⟨⟨k, v.line, address, name⟩, mem_labels_iff.2 ⟨hline, hlabel⟩, ?_, ?_⟩
  · rw [Routine.follow_heading, Routine.heading, LabelLine.heading, hk]
  · rw [Routine.follow_full_lines, LabelLine.extent, hrest]
    rfl

/-- If a routine owns a line, its label covers the line. -/
theorem Routine.Owns.covers {f : Routine} {k : Nat} (h : f.Owns k) (hl : l ∈ labels listing)
    (hheading : f.heading = l.heading) (hlines : f.lines.toList = l.extent listing) :
    l.Covers listing k := by
  obtain ⟨hle, hlt⟩ := h
  have hstart : f.lineStart = l.index := congrArg Prod.fst hheading
  have hsize : f.lines.size = (l.extent listing).length := by
    rw [← hlines, Array.length_toList]
  rw [hstart] at hle hlt
  exact ⟨hl, by omega, fun j => labelAt_extent (by omega)⟩

/-! ### The division -/

/-- What a full pass makes of a listing. -/
structure Divides (listing : List String) (a : Analysis) : Prop where
  /-- The table has its routines in the order of the listing. -/
  ordered : a.routines.Pairwise fun f g => f.lineStart < g.lineStart
  distinct : (a.routines.map Routine.start).Nodup
  /-- At an address the table has the routine of the first label with the address. -/
  first : ∀ address : Int, (a.routines.find? (·.start = address)).map Routine.heading =
    (firstLabel? listing address).map LabelLine.heading
  /-- A routine owns its label line and the lines up to the next label or the end. -/
  owned : ∀ f ∈ a.routines, ∃ l ∈ labels listing,
    f.heading = l.heading ∧ f.lines.toList = l.extent listing
  /-- No routine owns a line before the first label. -/
  unlabelled : ∀ k, (∀ j ≤ k, labelAt listing j = false) → ∀ f ∈ a.routines, ¬ f.Owns k
  /-- No routine owns a line of a label whose address was taken. -/
  taken : ∀ l k, l.Covers listing k → firstLabel? listing l.address ≠ some l →
    ∀ f ∈ a.routines, ¬ f.Owns k
  /-- Each label whose address was taken is reported once, and no other line as a duplicate. -/
  duplicates : Log.byCode a.diagnostics "duplicate-function" =
    (labels listing).filterMap (LabelLine.clash? listing)

theorem find?_analyze (config : Config) (listing : List String) (address : Int) :
    ((analyze config listing).routines.find? (·.start = address)).map Routine.heading =
      (firstLabel? listing address).map LabelLine.heading := by
  rw [analyze, find?_firstByStart]
  exact (PassState.records_run config listing).holder? address

/-- The label of a routine of the table is the first with its address. -/
theorem firstLabel?_of_mem_analyze {config : Config} {f : Routine}
    (hf : f ∈ (analyze config listing).routines) (hl : l ∈ labels listing)
    (hheading : f.heading = l.heading) : firstLabel? listing l.address = some l := by
  have hstart : f.start = l.address := congrArg (fun heading => heading.2.1) hheading
  have hdistinct : ((analyze config listing).routines.map Routine.start).Nodup :=
    nodup_firstByStart _
  have hfound := find?_analyze config listing f.start
  rw [find?_start_of_mem hdistinct hf, Option.map_some, hstart] at hfound
  obtain ⟨first, hsome, hfirst⟩ := Option.map_eq_some_iff.1 hfound.symm
  have hindex : (first.index : Int) = l.index := congrArg Prod.fst (hfirst.trans hheading)
  rw [hsome, label_eq_of_index_eq (firstLabel?_mem hsome) hl (Int.ofNat_inj.1 hindex)]

theorem pairwise_lineStart_analyze (config : Config) (listing : List String) :
    (analyze config listing).routines.Pairwise fun f g => f.lineStart < g.lineStart := by
  have hlabels : ((labels listing).map LabelLine.heading).Pairwise fun a b => a.1 < b.1 :=
    List.pairwise_map.2 ((pairwise_labels listing).imp Int.ofNat_lt.2)
  rw [← (PassState.records_run config listing).headings] at hlabels
  exact (List.pairwise_map.1 hlabels).sublist (firstByStart_sublist _)

/-- A full pass makes a routine of every section of the listing whose label is the first with its
address, and of nothing else. -/
theorem analyze_divides (config : Config) (listing : List String) :
    Divides listing (analyze config listing) where
  ordered := pairwise_lineStart_analyze config listing
  distinct := nodup_firstByStart _
  first := find?_analyze config listing
  owned _ hf := exists_label_of_mem_analyze hf
  unlabelled := by
    intro k hnone f hf howns
    obtain ⟨l, hl, hheading, hlines⟩ := exists_label_of_mem_analyze hf
    have hbefore := hnone l.index (howns.covers hl hheading hlines).le
    rw [labelAt_index hl] at hbefore
    cases hbefore
  taken := by
    intro l k hcovers htaken f hf howns
    obtain ⟨m, hm, hheading, hlines⟩ := exists_label_of_mem_analyze hf
    have hsame : l = m := hcovers.unique (howns.covers hm hheading hlines)
    rw [← hsame] at hm hheading
    exact htaken (firstLabel?_of_mem_analyze hf hm hheading)
  duplicates := (PassState.records_run config listing).duplicates

/-! ### An address that is taken twice -/

def retakenAddress : List String :=
  ["int main(void)", "100 <alpha>:", "100:\tcf 93\tpush\tr28", "100 <beta>:",
   "102:\tdf 93\tpush\tr29", "200 <gamma>:"]

/-- The first line comes before all labels, and the fourth and the fifth one are of a label whose
address was taken. -/
theorem analyze_divides_retakenAddress :
    (analyze {} retakenAddress).routines.map Routine.heading =
        [(1, 0x100, "alpha"), (5, 0x200, "gamma")] ∧
      (∀ f ∈ (analyze {} retakenAddress).routines, ¬ f.Owns 0 ∧ ¬ f.Owns 3 ∧ ¬ f.Owns 4) ∧
      (Log.byCode (analyze {} retakenAddress).diagnostics "duplicate-function").map
          (fun d => (d.lineIndex, d.message)) =
        [(some 3, "beta starts at 0x100, already taken by alpha")] := by
  have hdivides := analyze_divides {} retakenAddress
  have hcovers : ∀ k, 3 ≤ k → k ≤ 4 →
      LabelLine.Covers retakenAddress ⟨3, "100 <beta>:", 0x100, "beta"⟩ k := by
    intro k hle hk
    refine ⟨by decide +kernel, hle, fun j hj hjk => ?_⟩
    obtain rfl : j = 4 := by simp only at hj; omega
    decide +kernel
  have htaken : firstLabel? retakenAddress 0x100 ≠ some ⟨3, "100 <beta>:", 0x100, "beta"⟩ := by
    decide +kernel
  refine ⟨by decide +kernel, fun f hf => ⟨?_, ?_, ?_⟩, ?_⟩
  · exact hdivides.unlabelled 0 (by decide +kernel) f hf
  · exact hdivides.taken _ 3 (hcovers 3 (by decide) (by decide)) htaken f hf
  · exact hdivides.taken _ 4 (hcovers 4 (by decide) (by decide)) htaken f hf
  · rw [hdivides.duplicates]
    decide +kernel

end StackDepth
