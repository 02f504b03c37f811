import Mathlib
import StackDepth.Routine.ShortName

/-!
# The window onto a name

Where the window begins can be told in two ways. One goes through the name with a pattern: twice a
repetition of other characters and a repetition of digits, each as long as possible, and shorter ones
are tried when the rest of the pattern finds nothing. The other looks at the maximal runs of digits:
the window begins behind the second of them, and behind the only one if it has two digits, which the
pattern then divides between its repetitions. Both give `countedEnd` (`matchLength?_getD`,
`countedAt_countedEnd`).
-/
namespace StackDepth

open Text (isDigit)

variable {cs : List Char}

/-! ### Runs of digits -/

def digitAt (cs : List Char) (k : Nat) : Bool := cs[k]?.any isDigit

/-- The digits from `start` up to `stop`, with none before and behind them. -/
structure DigitRun (cs : List Char) (start stop : Nat) : Prop where
  nonempty : start < stop
  digits : ∀ k, start ≤ k → k < stop → digitAt cs k = true
  before : ∀ k, k + 1 = start → digitAt cs k = false
  behind : digitAt cs stop = false

/-- Where the first two counted components of a name end, told by its runs of digits. -/
inductive CountedAt (cs : List Char) : Nat → Prop
  | second {start stop start' stop' : Nat} : DigitRun cs start stop → DigitRun cs start' stop' →
      stop < start' → (∀ s e, DigitRun cs s e → s = start ∨ start' ≤ s) → CountedAt cs stop'
  | only {start stop : Nat} : DigitRun cs start stop → (∀ s e, DigitRun cs s e → s = start) →
      start + 2 ≤ stop → CountedAt cs stop
  | neither : (∀ s e, DigitRun cs s e → e < s + 2) →
      (∀ s e s' e', DigitRun cs s e → DigitRun cs s' e' → s = s') → CountedAt cs 0

theorem digitAt_drop (cs : List Char) (m k : Nat) : digitAt (cs.drop m) k = digitAt cs (m + k) := by
  rw [digitAt, digitAt, List.getElem?_drop]

theorem lt_length_of_digitAt {k : Nat} (h : digitAt cs k = true) : k < cs.length := by
  by_contra hge
  rw [digitAt, List.getElem?_eq_none (Nat.not_lt.1 hge)] at h
  cases h

namespace DigitRun

variable {start stop start' stop' : Nat}

theorem digitAt_start (h : DigitRun cs start stop) : digitAt cs start = true :=
  h.digits start (Nat.le_refl _) h.nonempty

theorem stop_le_length (h : DigitRun cs start stop) : stop ≤ cs.length := by
  have hlast := h.digits (stop - 1) (by have := h.nonempty; omega) (by have := h.nonempty; omega)
  have := lt_length_of_digitAt hlast
  omega

/-- Runs do not overlap. -/
theorem start_eq_or_stop_lt (h : DigitRun cs start stop) (h' : DigitRun cs start' stop')
    (hle : start ≤ start') : start' = start ∨ stop < start' := by
  by_cases hin : start' < stop
  · left
    by_contra hne
    have hdigit := h.digits (start' - 1) (by omega) (by omega)
    rw [h'.before (start' - 1) (by omega)] at hdigit
    cases hdigit
  · right
    by_contra hge
    have hstart := h'.digitAt_start
    rw [show start' = stop by omega, h.behind] at hstart
    cases hstart

theorem stop_eq (h : DigitRun cs start stop) (h' : DigitRun cs start stop') : stop = stop' := by
  by_contra hne
  rcases Nat.lt_or_gt_of_ne hne with hlt | hlt
  · have hdigit := h'.digits stop (Nat.le_of_lt h.nonempty) hlt
    rw [h.behind] at hdigit
    cases hdigit
  · have hdigit := h.digits stop' (Nat.le_of_lt h'.nonempty) hlt
    rw [h'.behind] at hdigit
    cases hdigit

theorem drop (h : DigitRun cs start stop) {m : Nat} (hm : m ≤ start) :
    DigitRun (cs.drop m) (start - m) (stop - m) := by
  have := h.nonempty
  refine ⟨by omega, ?_, ?_, ?_⟩
  · intro k hk hlt
    rw [digitAt_drop]
    exact h.digits _ (by omega) (by omega)
  · intro k hk
    rw [digitAt_drop]
    exact h.before _ (by omega)
  · rw [digitAt_drop, Nat.add_sub_cancel' (by omega)]
    exact h.behind

/-- A run of what is behind a run is a run of the whole. -/
theorem of_drop (h : DigitRun cs start stop) (h' : DigitRun (cs.drop stop) start' stop') :
    DigitRun cs (stop + start') (stop + stop') ∧ stop < stop + start' := by
  have hpos : start' ≠ 0 := by
    rintro rfl
    have hdigit := h'.digitAt_start
    rw [digitAt_drop, Nat.add_zero, h.behind] at hdigit
    cases hdigit
  refine ⟨⟨by have := h'.nonempty; omega, ?_, ?_, ?_⟩, by omega⟩
  · intro k hk hlt
    have hdigit := h'.digits (k - stop) (by omega) (by omega)
    rwa [digitAt_drop, Nat.add_sub_cancel' (by omega)] at hdigit
  · intro k hk
    have hno := h'.before (k - stop) (by omega)
    rwa [digitAt_drop, Nat.add_sub_cancel' (by omega)] at hno
  · have hno := h'.behind
    rwa [digitAt_drop] at hno

end DigitRun

/-- At most one end fits a name. -/
theorem CountedAt.unique {p q : Nat} (hp : CountedAt cs p) (hq : CountedAt cs q) : p = q := by
  cases hp with
  | @second start stop next _ hfirst hsecond hlt hothers =>
    have hnonempty := hfirst.nonempty
    cases hq with
    | @second start' stop' next' _ hfirst' hsecond' hlt' hothers' =>
      have hnext : next = next' := by
        have := hfirst'.nonempty
        have := hothers _ _ hfirst'
        have := hothers' _ _ hfirst
        have := hothers _ _ hsecond'
        have := hothers' _ _ hsecond
        omega
      subst hnext
      exact hsecond.stop_eq hsecond'
    | only hrun honly =>
      have := honly _ _ hfirst
      have := honly _ _ hsecond
      omega
    | neither _ hone =>
      have := hone _ _ _ _ hfirst hsecond
      omega
  | only hrun honly hlong =>
    cases hq with
    | second hfirst hsecond hlt =>
      have := honly _ _ hfirst
      have := honly _ _ hsecond
      have := hfirst.nonempty
      omega
    | only hrun' =>
      have hstart := honly _ _ hrun'
      subst hstart
      exact hrun.stop_eq hrun'
    | neither hshort =>
      have := hshort _ _ hrun
      omega
  | neither hshort hone =>
    cases hq with
    | second hfirst hsecond hlt =>
      have := hone _ _ _ _ hfirst hsecond
      have := hfirst.nonempty
      omega
    | only hrun _ hlong =>
      have := hshort _ _ hrun
      omega
    | neither => rfl

/-! ### The runs that are counted -/

theorem afterCount_eq_none_iff : afterCount cs = none ↔ ∀ c ∈ cs, isDigit c = false := by
  have hnil : cs.dropWhile (!isDigit ·) = [] ↔ ∀ c ∈ cs, isDigit c = false := by
    simp [List.dropWhile_eq_nil_iff]
  rw [← hnil, afterCount]
  cases cs.dropWhile (!isDigit ·) with
  | nil => simp
  | cons c rest => simp

theorem digitAt_eq_false (h : ∀ c ∈ cs, isDigit c = false) (k : Nat) : digitAt cs k = false := by
  cases hk : cs[k]? with
  | none => rw [digitAt, hk, Option.any_none]
  | some c => rw [digitAt, hk, Option.any_some, h c (List.mem_of_getElem? hk)]

/-- A text that begins with no digits, some digits and no digit has these digits as its first run. -/
theorem digitRun_of_append {gap run rest : List Char} (hgap : ∀ c ∈ gap, isDigit c = false)
    (hrun : ∀ c ∈ run, isDigit c = true) (hne : run ≠ [])
    (hrest : ∀ c ∈ rest.head?, isDigit c = false) :
    DigitRun (gap ++ run ++ rest) gap.length (gap.length + run.length) ∧
      ∀ k, k < gap.length → digitAt (gap ++ run ++ rest) k = false := by
  have hbefore : ∀ k, k < gap.length → digitAt (gap ++ run ++ rest) k = false := by
    intro k hk
    rw [digitAt, List.append_assoc, List.getElem?_append_left hk]
    exact digitAt_eq_false hgap k
  refine ⟨⟨?_, ?_, fun k hk => hbefore k (by omega), ?_⟩, hbefore⟩
  · have := List.length_pos_iff.2 hne
    omega
  · intro k hk hlt
    have hin : k - gap.length < run.length := by omega
    rw [digitAt, List.append_assoc, List.getElem?_append_right hk, List.getElem?_append_left hin,
      List.getElem?_eq_getElem hin, Option.any_some]
    exact hrun _ (List.getElem_mem hin)
  · rw [digitAt, ← List.length_append, List.getElem?_append_right (Nat.le_refl _), Nat.sub_self,
      ← List.head?_eq_getElem?]
    cases hhead : rest.head? with
    | none => rfl
    | some c => exact hrest c hhead

theorem head?_dropWhile_isDigit (cs : List Char) :
    ∀ c ∈ (cs.dropWhile isDigit).head?, isDigit c = false := by
  intro c hc
  have hno := List.head?_dropWhile_not isDigit cs
  rw [Option.mem_def.1 hc] at hno
  simpa using hno

/-- A count is found behind other characters and takes in all digits there. -/
theorem afterCount_eq_some {rest : List Char} (h : afterCount cs = some rest) :
    ∃ gap run, cs = gap ++ run ++ rest ∧ run = (cs.dropWhile (!isDigit ·)).takeWhile isDigit ∧
      (∀ c ∈ gap, isDigit c = false) ∧ (∀ c ∈ run, isDigit c = true) ∧ run ≠ [] ∧
      ∀ c ∈ rest.head?, isDigit c = false := by
  have hcs := List.takeWhile_append_dropWhile (p := (!isDigit ·)) (l := cs)
  have hhead := List.head?_dropWhile_not (!isDigit ·) cs
  have hgap : ∀ c ∈ cs.takeWhile (!isDigit ·), isDigit c = false :=
    fun c hc => by simpa using List.mem_takeWhile_imp hc
  unfold afterCount at h
  cases hdrop : cs.dropWhile (!isDigit ·) with
  | nil => simp [hdrop] at h
  | cons c tail =>
    rw [hdrop] at h hcs hhead
    obtain rfl := Option.some.inj h
    have hc : isDigit c = true := by simpa using hhead
    refine ⟨cs.takeWhile (!isDigit ·), (c :: tail).takeWhile isDigit, ?_, rfl, hgap,
      fun d hd => List.mem_takeWhile_imp hd, by simp [hc], head?_dropWhile_isDigit _⟩
    rw [List.append_assoc, List.takeWhile_append_dropWhile, hcs]

theorem exists_firstRun {rest : List Char} (h : afterCount cs = some rest) :
    ∃ start stop, DigitRun cs start stop ∧ (∀ s e, DigitRun cs s e → start ≤ s) ∧
      rest = cs.drop stop ∧
      ((cs.dropWhile (!isDigit ·)).takeWhile isDigit).length = stop - start := by
  obtain ⟨gap, run, hcs, hrunEq, hgap, hdigits, hne, hrest⟩ := afterCount_eq_some h
  obtain ⟨hrun, hbefore⟩ := digitRun_of_append hgap hdigits hne hrest
  rw [← hcs] at hrun hbefore
  refine ⟨_, _, hrun, ?_, ?_, by rw [← hrunEq]; omega⟩
  · intro s e hs
    by_contra hlt
    have hdigit := hs.digitAt_start
    rw [hbefore s (Nat.not_le.1 hlt)] at hdigit
    cases hdigit
  · rw [← List.length_append, hcs, List.drop_left]

theorem countedAt_countedEnd (cs : List Char) : CountedAt cs (countedEnd cs) := by
  have hend : ∀ {start stop}, DigitRun cs start stop →
      cs.length - (cs.drop stop).length = stop := by
    intro start stop hrun
    have := hrun.stop_le_length
    rw [List.length_drop]
    omega
  unfold countedEnd
  cases hfirst : afterCount cs with
  | none =>
    have hno : ∀ s e, ¬ DigitRun cs s e := by
      intro s e hrun
      have hdigit := hrun.digitAt_start
      rw [digitAt_eq_false (afterCount_eq_none_iff.1 hfirst)] at hdigit
      cases hdigit
    exact .neither (fun s e hrun => absurd hrun (hno s e)) fun s e _ _ hrun => absurd hrun (hno s e)
  | some rest =>
    obtain ⟨start, stop, hrun, hleast, rfl, hlength⟩ := exists_firstRun hfirst
    have hnonempty := hrun.nonempty
    have hothers : ∀ s e, DigitRun cs s e → s = start ∨ stop < s :=
      fun s e hs => hrun.start_eq_or_stop_lt hs (hleast s e hs)
    simp only
    cases hsecond : afterCount (cs.drop stop) with
    | none =>
      have honly : ∀ s e, DigitRun cs s e → s = start := by
        intro s e hs
        refine (hothers s e hs).resolve_right fun hlt => ?_
        have hdigit := hs.digitAt_start
        rw [← Nat.add_sub_cancel' (Nat.le_of_lt hlt), ← digitAt_drop,
          digitAt_eq_false (afterCount_eq_none_iff.1 hsecond)] at hdigit
        cases hdigit
      simp only [hlength]
      split
      · rw [hend hrun]
        exact .only hrun honly (by omega)
      · refine .neither ?_ fun s e s' e' hs hs' => (honly s e hs).trans (honly s' e' hs').symm
        intro s e hs
        obtain rfl := honly s e hs
        have := hrun.stop_eq hs
        omega
    | some rest =>
      obtain ⟨next, stop', hnext, hnextLeast, rfl, -⟩ := exists_firstRun hsecond
      obtain ⟨hsecondRun, hlt⟩ := hrun.of_drop hnext
      simp only [List.drop_drop]
      rw [hend hsecondRun]
      refine .second hrun hsecondRun hlt fun s e hs => ?_
      refine (hothers s e hs).imp_right fun hbehind => ?_
      have := hnextLeast _ _ (hs.drop (Nat.le_of_lt hbehind))
      omega

/-! ### The pattern -/

/-- What a repetition of characters can leave of a text, in the order in which it is tried: with the
most characters taken first, and with none taken last. -/
def repetition (p : Char → Bool) : List Char → List (List Char)
  | [] => [[]]
  | c :: cs => if p c then repetition p cs ++ [c :: cs] else [c :: cs]

/-- The same for a repetition that takes one character at least. -/
def repetition₁ (p : Char → Bool) : List Char → List (List Char)
  | [] => []
  | c :: cs => if p c then repetition p cs else []

/-- What one component can leave: other characters are taken, then digits. -/
def component (cs : List Char) : List (List Char) :=
  (repetition (!isDigit ·) cs).flatMap (repetition₁ isDigit)

/-- What two components can leave. -/
def components (cs : List Char) : List (List Char) := (component cs).flatMap component

/-- The length of the first match of two components, which is looked for from every place of the
text on. -/
def matchLength? (cs : List Char) : Option Nat :=
  cs.tails.findSome? fun tail => (components tail).head?.map (tail.length - ·.length)

theorem head?_repetition (p : Char → Bool) (cs : List Char) :
    (repetition p cs).head? = some (cs.dropWhile p) := by
  induction cs with
  | nil => rfl
  | cons c cs ih =>
    rw [repetition]
    split
    · rename_i hc
      rw [List.head?_append, ih, Option.some_or, List.dropWhile_cons_of_pos hc]
    · rename_i hc
      rw [List.head?_cons, List.dropWhile_cons_of_neg hc]

/-- Digits are only found if the repetition in front of them takes all it can. -/
theorem component_eq (cs : List Char) :
    component cs = repetition₁ isDigit (cs.dropWhile (!isDigit ·)) := by
  unfold component
  induction cs with
  | nil => rfl
  | cons c cs ih =>
    rw [repetition]
    cases hc : isDigit c with
    | true => simp [hc]
    | false => simp [hc, ih, repetition₁]

theorem head?_component (cs : List Char) : (component cs).head? = afterCount cs := by
  rw [component_eq, afterCount]
  cases hdrop : cs.dropWhile (!isDigit ·) with
  | nil => rfl
  | cons c tail =>
    have hc : isDigit c = true := by
      simpa [hdrop] using List.head?_dropWhile_not (!isDigit ·) cs
    rw [repetition₁, if_pos hc, head?_repetition]
    simp only [List.dropWhile_cons_of_pos hc]

/-- Behind digits, a second component is found behind all of them, or else begins with the last of
them. -/
theorem head?_flatMap_component (cs : List Char) :
    ((repetition isDigit cs).flatMap component).head? =
      (afterCount (cs.dropWhile isDigit)).or
        (if cs.head?.any isDigit then some (cs.dropWhile isDigit) else none) := by
  induction cs with
  | nil => simp [repetition, head?_component]
  | cons c cs ih =>
    rw [repetition]
    cases hc : isDigit c with
    | true =>
      have hlast : (component (c :: cs)).head? = some (cs.dropWhile isDigit) := by
        rw [component_eq, List.dropWhile_cons_of_neg (by simp [hc]), repetition₁, if_pos hc,
          head?_repetition]
      simp only [if_true, List.flatMap_append, List.flatMap_singleton, List.head?_append, ih, hlast,
        List.dropWhile_cons_of_pos hc, List.head?_cons, Option.any_some, hc]
      cases afterCount (cs.dropWhile isDigit) with
      | some rest => rfl
      | none => split <;> rfl
    | false => simp [hc, head?_component]

theorem two_le_length_takeWhile {c : Char} (hc : isDigit c = true) (tail : List Char) :
    2 ≤ ((c :: tail).takeWhile isDigit).length ↔ tail.head?.any isDigit = true := by
  rw [List.takeWhile_cons_of_pos hc]
  cases tail with
  | nil => simp
  | cons d tail =>
    cases hd : isDigit d <;> simp [hd]

theorem countedEnd_eq (cs : List Char) :
    countedEnd cs = ((components cs).head?.map (cs.length - ·.length)).getD 0 := by
  have hfirst := head?_component cs
  rw [countedEnd, components, component_eq]
  rw [component_eq] at hfirst
  cases hdrop : cs.dropWhile (!isDigit ·) with
  | nil =>
    rw [hdrop] at hfirst
    rw [← hfirst]
    rfl
  | cons c tail =>
    have hc : isDigit c = true := by
      simpa [hdrop] using List.head?_dropWhile_not (!isDigit ·) cs
    rw [hdrop, repetition₁, if_pos hc, head?_repetition] at hfirst
    rw [← hfirst, repetition₁, if_pos hc, head?_flatMap_component]
    simp only [two_le_length_takeWhile hc]
    cases afterCount (tail.dropWhile isDigit) with
    | some rest => rfl
    | none =>
      simp only [Option.none_or]
      split <;> rfl

theorem components_eq_nil_of_cons {c : Char} (h : components (c :: cs) = []) :
    components cs = [] := by
  cases hc : isDigit c with
  | false =>
    rw [components, component_eq, List.dropWhile_cons_of_pos (by simp [hc]), ← component_eq] at h
    exact h
  | true =>
    rw [components, component_eq, List.dropWhile_cons_of_neg (by simp [hc]), repetition₁, if_pos hc,
      ← List.head?_eq_none_iff, head?_flatMap_component, Option.or_eq_none_iff] at h
    obtain ⟨hnone, hhead⟩ := h
    have hself : cs.dropWhile isDigit = cs := by
      cases cs with
      | nil => rfl
      | cons d tail =>
        refine List.dropWhile_cons_of_neg fun hd => ?_
        rw [List.head?_cons, Option.any_some, if_pos hd] at hhead
        cases hhead
    have hcomponent : component cs = [] := by
      rw [← List.head?_eq_none_iff, head?_component, ← hself, hnone]
    rw [components, hcomponent, List.flatMap_nil]

/-- If the pattern is found at all, then at the beginning. -/
theorem matchLength?_eq (cs : List Char) :
    matchLength? cs = (components cs).head?.map (cs.length - ·.length) := by
  induction cs with
  | nil => rfl
  | cons c cs ih =>
    have htails : matchLength? (c :: cs) =
        ((components (c :: cs)).head?.map ((c :: cs).length - ·.length)).or (matchLength? cs) := by
      rw [matchLength?, List.tails_cons, List.findSome?_cons]
      cases (components (c :: cs)).head? <;> rfl
    rw [htails, ih]
    cases hhead : (components (c :: cs)).head? with
    | some rest => rfl
    | none =>
      rw [components_eq_nil_of_cons (List.head?_eq_none_iff.1 hhead)]
      rfl

theorem matchLength?_getD (cs : List Char) : (matchLength? cs).getD 0 = countedEnd cs := by
  rw [matchLength?_eq, countedEnd_eq]

/-! ### The window -/

theorem shortNameChars_of_lt {width : Nat} (h : cs.length < width) :
    shortNameChars cs width = cs := by
  rw [shortNameChars, if_pos (by omega)]

theorem shortNameChars_of_le {width : Nat} (h : width ≤ cs.length) :
    shortNameChars cs width =
      (cs.drop (min (countedEnd cs) (cs.length - width))).take width := by
  have hstart : (if (countedEnd cs : Int) + width > cs.length then
      ((cs.length : Int) - width).toNat else countedEnd cs) =
      min (countedEnd cs) (cs.length - width) := by
    split <;> omega
  rw [shortNameChars, if_neg (by omega)]
  simp only [hstart, segment]
  rw [if_neg (by omega), ← Int.natCast_add, Int.toNat_natCast, List.drop_take,
    Nat.add_sub_cancel_left]

theorem length_shortNameChars (cs : List Char) (width : Nat) :
    (shortNameChars cs width).length = min cs.length width := by
  rcases Nat.lt_or_ge cs.length width with h | h
  · rw [shortNameChars_of_lt h]
    omega
  · rw [shortNameChars_of_le h, List.length_take, List.length_drop]
    omega

/-- A name that fills the window is shown whole. -/
theorem shortNameChars_of_eq {width : Nat} (h : cs.length = width) :
    shortNameChars cs width = cs := by
  rw [shortNameChars_of_le (Nat.le_of_eq h.symm), h, Nat.sub_self, Nat.min_zero, List.drop_zero,
    List.take_of_length_le (Nat.le_of_eq h)]

theorem shortNameChars_idem (cs : List Char) (width : Nat) :
    shortNameChars (shortNameChars cs width) width = shortNameChars cs width := by
  rcases Nat.lt_or_ge cs.length width with h | h
  · rw [shortNameChars_of_lt h, shortNameChars_of_lt h]
  · apply shortNameChars_of_eq
    rw [length_shortNameChars, Nat.min_eq_right h]

/-- A short name is as long as the name and the width allow. A name that does not fill the width is
shown whole. Any other is shown through a window of that width, which begins where the pattern of two
counted components ends, or as far to the right as it fits; and this is the end of the second run of
digits, or that of the only run if it has two digits, or else the beginning. A name that was cut is
not cut again. -/
theorem shortName_window (name : String) (width : Nat) :
    (shortName name width).length = min name.length width ∧
    (name.length < width → shortName name width = name) ∧
    (∃ p, CountedAt name.toList p ∧ (∀ q, CountedAt name.toList q → q = p) ∧
      (matchLength? name.toList).getD 0 = p ∧
      (width ≤ name.length → (shortName name width).toList =
        (name.toList.drop (min p (name.length - width))).take width)) ∧
    shortName (shortName name width) width = shortName name width := by
  have hlength : name.length = name.toList.length := String.length_toList.symm
  have hcounted := countedAt_countedEnd name.toList
  refine ⟨?_, ?_, ⟨countedEnd name.toList, hcounted, fun q hq => hq.unique hcounted,
    matchLength?_getD _, ?_⟩, ?_⟩
  · rw [shortName, String.length_ofList, length_shortNameChars, hlength]
  · intro h
    rw [shortName, shortNameChars_of_lt (hlength ▸ h), String.ofList_toList]
  · intro h
    rw [shortName, String.toList_ofList, shortNameChars_of_le (hlength ▸ h), hlength]
  · rw [shortName, shortName, String.toList_ofList, shortNameChars_idem]

/-- The two digits stand for two counted components. -/
example : shortName "irq12handlers" 8 = "handlers" := by decide +kernel

end StackDepth
