import Mathlib
import StackDepth.Proofs.Analysis.Visits

/-!
# The usage of a routine bounds the usage within it

A full pass lets the stack of a routine only grow, and a bounded pass lets it grow by no more. So
what a full pass charges to a routine bounds what is in use before any of its instructions. There
are three provisos. The full pass must not have turned down a reservation, since the bounded pass
may have released by then what stood in its way. No block that is reserved or released may have a
negative size.
-/
namespace StackDepth

namespace Operation

def isRegisterSave : Operation → Bool
  | registerSave _ => true
  | _ => false

def increment? : Operation → Option Nat
  | stackIncrement amount => some amount
  | _ => none

end Operation

namespace Routine

/-- The line reserves in the routine only where nothing is held, and neither reserves nor releases
less than nothing. Of a release that is open at the next label no amount is known. -/
structure Orderly (config : Config) (r : Routine) (line : String) (following : List String) :
    Prop where
  free : ∀ operation ∈ Line.operationAt config line following,
    (r.reservation? config operation).isSome = true → r.reserved = 0
  saved : ∀ operation ∈ Line.operationAt config line following,
    operation.isRegisterSave = true → r.reserved = 0 →
      ∀ amount ∈ r.reservation? config operation, 0 ≤ amount
  released : ∀ operation ∈ Line.operationAt config line (untilLabel following),
    ∀ amount ∈ operation.increment?, (amount : Int) ≤ config.releaseModulus

instance (config : Config) (r : Routine) (line : String) (following : List String) :
    Decidable (r.Orderly config line following) :=
  decidable_of_iff
    ((∀ operation ∈ Line.operationAt config line following,
        (r.reservation? config operation).isSome = true → r.reserved = 0) ∧
      (∀ operation ∈ Line.operationAt config line following,
        operation.isRegisterSave = true → r.reserved = 0 →
          ∀ amount ∈ r.reservation? config operation, 0 ≤ amount) ∧
      ∀ operation ∈ Line.operationAt config line (untilLabel following),
        ∀ amount ∈ operation.increment?, (amount : Int) ≤ config.releaseModulus)
    ⟨fun h => ⟨h.1, h.2.1, h.2.2⟩, fun h => ⟨h.free, h.saved, h.released⟩⟩

variable {config : Config} {r : Routine} {line : String} {following : List String}

theorem Orderly.reservation_nonneg (h : r.Orderly config line following) {operation : Operation}
    {amount : Int} (hoperation : Line.operationAt config line following = some operation)
    (hreservation : r.reservation? config operation = some amount) (hreserved : r.reserved = 0) :
    0 ≤ amount := by
  cases operation with
  | registerSave offset => exact h.saved _ hoperation rfl hreserved amount hreservation
  | stackDecrement n =>
    rw [reservation?] at hreservation
    split at hreservation
    · cases hreservation
    · cases hreservation
      exact Int.natCast_nonneg n
  | _ => cases hreservation

/-! ### One line -/

theorem Orderly.le_pass (h : r.Orderly config line following)
    (hreturn : 0 ≤ config.returnAddressBytes) :
    r.stackUsed ≤ (r.pass config .full line following).stackUsed := by
  cases hchange : r.change? config .full line following with
  | none => rw [pass_of_no_change hchange]
  | some after =>
    obtain ⟨operation, warning, hoperation, hchanged⟩ := change?_eq_some hchange
    have hle : r.stackUsed ≤ after.stackUsed := by
      cases applies_of_operate hchanged with
      | push => exact Int.le_add_of_nonneg_right (by decide)
      | selfCall => exact Int.le_add_of_nonneg_right hreturn
      | reserve hreservation hreserved =>
        have hamount := h.reservation_nonneg hoperation hreservation hreserved
        exact Int.le_add_of_nonneg_right hamount
      | call | jump => exact Int.le_refl _
      | pop hmode | release hmode | restore _ hmode => cases hmode
    rw [pass_of_change hchange]
    exact hle

/-- The routine `b` of a bounded pass uses no more than the routine `r` of a full pass that has
passed the same lines. -/
structure Below (b r : Routine) : Prop where
  lines : b.lines = r.lines
  stackUsed : b.stackUsed ≤ r.stackUsed
  reserved : 0 ≤ b.reserved

theorem reservation?_congr {b : Routine} (h : b.lines = r.lines) (operation : Operation) :
    b.reservation? config operation = r.reservation? config operation := by
  cases operation <;> simp only [reservation?, h]

/-- An operation that the routine's own lines settle reads alike in the whole listing. -/
theorem operationAt_of_change {b after : Routine} {stop : Int}
    (h : b.change? config (.bounded stop) line (untilLabel following) = some after) :
    ∃ operation warning, Line.operationAt config line (untilLabel following) = some operation ∧
      Line.operationAt config line following = some operation ∧
      Applies config (.bounded stop) b operation after warning := by
  obtain ⟨operation, warning, hoperation, hchanged⟩ := change?_eq_some h
  refine ⟨operation, warning, hoperation, ?_, applies_of_operate hchanged⟩
  rcases Line.operationAt_untilLabel config line following with hsame | ⟨hother, -⟩
  · rw [← hsame, hoperation]
  · rw [hoperation, Option.some.injEq] at hother
    subst hother
    cases hchanged

/-- A bounded pass of a line raises the stack by no more than a full pass does. -/
theorem Below.step {b after : Routine} {stop : Int} (hb : b.Below r)
    (h : r.Orderly config line following) (hreturn : 0 ≤ config.returnAddressBytes)
    (hchange : b.change? config (.bounded stop) line (untilLabel following) = some after) :
    after.stackUsed ≤ (r.pass config .full line following).stackUsed ∧ 0 ≤ after.reserved := by
  have hused := hb.stackUsed
  have hreserved := hb.reserved
  have hgrows := h.le_pass hreturn
  obtain ⟨operation, warning, hown, hoperation, happlies⟩ := operationAt_of_change hchange
  cases happlies with
  | push =>
    have hpass : r.pass config .full line following = _ := pass_of_operate hoperation rfl
    rw [hpass]
    exact ⟨Int.add_le_add_right hused 1, hreserved⟩
  | selfCall =>
    have hpass : r.pass config .full line following = _ := pass_of_operate hoperation rfl
    rw [hpass]
    exact ⟨Int.add_le_add_right hused config.returnAddressBytes, hreserved⟩
  | @reserve _ amount hreservation =>
    rw [reservation?_congr hb.lines] at hreservation
    have hfree := h.free operation hoperation (by rw [hreservation]; rfl)
    have hchanged : r.operate config .full operation = _ :=
      (operate_reservation .full hreservation).trans (by rw [reserve, if_pos hfree])
    rw [pass_of_operate hoperation hchanged]
    exact ⟨Int.add_le_add_right hused amount,
      h.reservation_nonneg hoperation hreservation hfree⟩
  | call | jump => exact ⟨Int.le_trans hused hgrows, hreserved⟩
  | pop =>
    simp only
    omega
  | @release amount =>
    have hamount := h.released _ hown amount rfl
    simp only
    omega
  | restore =>
    simp only
    omega

theorem Below.pass {b : Routine} (hb : b.Below r) (h : r.Orderly config line following)
    (hreturn : 0 ≤ config.returnAddressBytes) (stop : Int) :
    (b.pass config (.bounded stop) line (untilLabel following)).Below
      (r.pass config .full line following) := by
  have hlines : b.lines.push line = r.lines.push line := by rw [hb.lines]
  cases hchange : b.change? config (.bounded stop) line (untilLabel following) with
  | none =>
    rw [pass_of_no_change hchange]
    exact ⟨hlines, Int.le_trans hb.stackUsed (h.le_pass hreturn), hb.reserved⟩
  | some after =>
    rw [pass_of_change hchange]
    obtain ⟨hused, hreserved⟩ := hb.step h hreturn hchange
    exact ⟨hlines, hused, hreserved⟩

/-! ### All lines of a routine -/

theorem le_follow (hreturn : 0 ≤ config.returnAddressBytes) {rest : List String}
    (h : ∀ stay ∈ r.stays config .full rest,
      stay.routine.Orderly config stay.line stay.following) :
    r.stackUsed ≤ (r.follow config .full rest).stackUsed := by
  induction rest generalizing r with
  | nil => exact Int.le_refl _
  | cons line rest ih =>
    cases hlabel : Line.isLabel line with
    | true => rw [follow_stop (by simp [hlabel])]
    | false =>
      rw [stays_pass hlabel rfl] at h
      rw [follow_pass hlabel rfl]
      have hline := h _ List.mem_cons_self
      have hrest := ih fun stay hstay => h stay (List.mem_cons_of_mem _ hstay)
      exact Int.le_trans (hline.le_pass hreturn) hrest

/-- Wherever the bounded pass ends, it has used no more than the full pass in the end. -/
theorem Below.follow_le {b : Routine} (hb : b.Below r) (hreturn : 0 ≤ config.returnAddressBytes)
    {rest : List String} (h : ∀ stay ∈ r.stays config .full rest,
      stay.routine.Orderly config stay.line stay.following) (stop : Int) :
    (b.follow config (.bounded stop) (untilLabel rest)).stackUsed ≤
      (r.follow config .full rest).stackUsed := by
  induction rest generalizing r b with
  | nil => exact hb.stackUsed
  | cons line rest ih =>
    cases hlabel : Line.isLabel line with
    | true =>
      rw [untilLabel_label hlabel, follow_stop (by simp [hlabel])]
      exact hb.stackUsed
    | false =>
      rw [untilLabel_body hlabel]
      cases hends : (PassMode.bounded stop).endsBefore line with
      | true =>
        rw [follow_stop (by simp [hends])]
        exact Int.le_trans hb.stackUsed (le_follow hreturn h)
      | false =>
        rw [stays_pass hlabel rfl] at h
        rw [follow_pass hlabel hends, follow_pass hlabel rfl]
        have hline := h _ List.mem_cons_self
        exact ih (hb.pass hline hreturn stop) fun stay hstay =>
          h stay (List.mem_cons_of_mem _ hstay)

end Routine

/-- The stack that a full pass charges to a routine bounds what a bounded pass finds in use at any
address, if every line at which the full pass was in the routine is orderly. -/
theorem stackUsed_analyzePart_le (config : Config) (hreturn : 0 ≤ config.returnAddressBytes)
    (lines : List String) (f : Routine) (hf : f ∈ (analyze config lines).routines)
    (h : ∀ v ∈ PassState.visits config .full {} lines, ∀ r ∈ v.current?,
      r.lineStart = f.lineStart → r.Orderly config v.line v.following) (stop : Int) :
    (analyzePart config f stop).routine.stackUsed ≤ f.stackUsed := by
  obtain ⟨label, address, name, index, rest, hlabel, hfollowed⟩ :=
    PassState.exists_followed (mem_opened_of_mem_analyze hf)
  have horderly : ∀ stay ∈ Routine.stays config .full
      { name, start := address, lineStart := index, lines := #[label] } rest,
      stay.routine.Orderly config stay.line stay.following :=
    hfollowed.forall_stays_iff.2 fun v hv r hr hstart _ => h v hv r hr hstart
  have hbelow : Routine.Below { name, start := address, lines := #[label] }
      { name, start := address, lineStart := index, lines := #[label] } :=
    ⟨rfl, Int.le_refl _, Int.le_refl _⟩
  have hpart : (analyzePart config f stop).routine = Routine.follow config (.bounded stop)
      { name, start := address, lines := #[label] } (untilLabel rest) := by
    simp only [analyzePart, hfollowed.lines_eq]
    rw [List.singleton_append, PassState.run_own config _ hlabel]
    rfl
  rw [hpart, hfollowed.eq_follow]
  exact hbelow.follow_le hreturn horderly stop

/-- A routine that has its registers saved and restored by the helpers. -/
def savedFrame : List String :=
  ["700 <work>:", "700:\ta0 e1\tldi\tr26, 0x10\t; 16", "702:\tb0 e0\tldi\tr27, 0x00\t; 0",
   "704:\t0c 94 00 01\tjmp\t0x200\t; 0x200 <__prologue_saves__+0x1c>",
   "708:\tcf 93\tpush\tr28", "70a:\tcf 91\tpop\tr28",
   "70c:\t0c 94 10 01\tjmp\t0x220\t; 0x220 <__epilogue_restores__+0x1c>"]

theorem stackUsed_analyzePart_le_savedFrame :
    ∃ f, (analyze {} savedFrame).routines = [f] ∧ f.stackUsed = 21 ∧
      (∀ v ∈ PassState.visits {} .full {} savedFrame, ∀ r ∈ v.current?,
        r.lineStart = f.lineStart → r.Orderly {} v.line v.following) ∧
      (∀ stop, (analyzePart {} f stop).routine.stackUsed ≤ 21) ∧
      (analyzePart {} f 0x70a).routine.stackUsed = 21 ∧
      (analyzePart {} f 0x70c).routine.stackUsed = 20 := by
  have hused : (analyze {} savedFrame).routines.map Routine.stackUsed = [21] := by decide +kernel
  have horderly : ∀ f ∈ (analyze {} savedFrame).routines,
      ∀ v ∈ PassState.visits {} .full {} savedFrame, ∀ r ∈ v.current?,
        r.lineStart = f.lineStart → r.Orderly {} v.line v.following := by decide +kernel
  have hparts : ∀ f ∈ (analyze {} savedFrame).routines,
      (analyzePart {} f 0x70a).routine.stackUsed = 21 ∧
        (analyzePart {} f 0x70c).routine.stackUsed = 20 := by decide +kernel
  obtain ⟨f, hf, hused⟩ := List.map_eq_singleton_iff.1 hused
  have hmem : f ∈ (analyze {} savedFrame).routines := by rw [hf]; exact List.mem_singleton_self f
  refine ⟨f, hf, hused, horderly f hmem, fun stop => ?_, hparts f hmem⟩
  rw [← hused]
  exact stackUsed_analyzePart_le {} (by decide) savedFrame f hmem (horderly f hmem) stop

end StackDepth
