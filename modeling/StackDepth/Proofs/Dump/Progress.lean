import Mathlib
import StackDepth.Dump.Trace

/-!
# Whether a trace comes to an end

The walk through a dump goes in rounds. A round reads the return address at a position and goes on
behind the frame there, which spans the return address and the bytes that the routine holds. Sound
settings allow return addresses without any bytes, and then a frame may span nothing: the next
round begins where this one did, and the walk never ends.

That is the only way to fail. As long as each frame of a walk spans something, every round moves
forward, and there are fewer rounds than bytes behind the stack pointer. The walk of `Dump.trace`
has steps for twice as many, so it takes all rounds of a walk that ends and reports every other one
as endless (`trace_endless_iff`).
-/
namespace StackDepth

theorem Config.returnAddressBytes_nonneg {config : Config} (h : config.problems = []) :
    0 ≤ config.returnAddressBytes := by
  have hsound := List.filter_eq_nil_iff.1 h .returnAddressBytes (by decide)
  simpa [Config.has] using hsound

namespace Dump

variable {n : Nat} {c : Catalogue n} {g : CallGraph n} {config : Config} {dump : List UInt8}
variable {p q r : Int} {k m : Nat}

/-! ### Rounds -/

/-- The frame that a round finds at a position, unless the walk ends there. -/
def frameFrom? (c : Catalogue n) (g : CallGraph n) (config : Config) (dump : List UInt8)
    (position : Int) : Option TraceFrame :=
  if (dump.length : Int) < position + 2 then none
  else
    (returnAddressAt? dump.toArray position).bind fun address =>
      (frameAt c g config address).result.toOption

/-- Where the next round begins. -/
def next? (c : Catalogue n) (g : CallGraph n) (config : Config) (dump : List UInt8)
    (position : Int) : Option Int :=
  (frameFrom? c g config dump position).map fun frame =>
    position + Trace.span config.returnAddressBytes frame

/-- A number of rounds lead from one position to another. -/
inductive Rounds (c : Catalogue n) (g : CallGraph n) (config : Config) (dump : List UInt8) :
    Int → Nat → Int → Prop
  | none (p : Int) : Rounds c g config dump p 0 p
  | round {p q r : Int} {k : Nat} : next? c g config dump p = some q →
      Rounds c g config dump q k r → Rounds c g config dump p (k + 1) r

theorem lt_length_of_next? (h : next? c g config dump p = some q) :
    p + 2 ≤ dump.length := by
  obtain ⟨frame, hframe, -⟩ := Option.map_eq_some_iff.1 h
  unfold frameFrom? at hframe
  split at hframe
  · cases hframe
  · omega

namespace Rounds

theorem snoc (h : Rounds c g config dump p k q) (hnext : next? c g config dump q = some r) :
    Rounds c g config dump p (k + 1) r := by
  induction h with
  | none p => exact .round hnext (.none r)
  | round hfirst _ ih => exact .round hfirst (ih hnext)

/-- A walk of some rounds has walked fewer before. -/
theorem exists_of_le (h : Rounds c g config dump p k r) (hle : m ≤ k) :
    ∃ q, Rounds c g config dump p m q := by
  induction h generalizing m with
  | none p =>
    rw [Nat.le_zero.1 hle]
    exact ⟨p, .none p⟩
  | @round p _ _ k hfirst _ ih =>
    cases m with
    | zero => exact ⟨p, .none p⟩
    | succ m =>
      obtain ⟨q, hq⟩ := ih (Nat.le_of_succ_le_succ hle)
      exact ⟨q, .round hfirst hq⟩

theorem exists_last (h : Rounds c g config dump p (k + 1) r) :
    ∃ q, Rounds c g config dump p k q ∧ next? c g config dump q = some r := by
  induction k generalizing p with
  | zero =>
    cases h with
    | round hnext hrest =>
      cases hrest
      exact ⟨p, .none p, hnext⟩
  | succ k ih =>
    cases h with
    | round hnext hrest =>
      obtain ⟨q, hq, hlast⟩ := ih hrest
      exact ⟨q, .round hnext hq, hlast⟩

/-- A walk that comes to a position which a round does not leave goes on for ever. -/
theorem stay (h : Rounds c g config dump p k q) (hstay : next? c g config dump q = some q)
    (m : Nat) : Rounds c g config dump p (k + m) q := by
  induction m with
  | zero => exact h
  | succ m ih => exact ih.snoc hstay

end Rounds

/-- The walk has no steps left exactly if it could take them all. -/
theorem framesFrom_endless_iff {steps : Nat} {position : Int} :
    (framesFrom c g config dump.toArray steps position).result = .error .endless ↔
      ∃ r, Rounds c g config dump position steps r := by
  induction steps generalizing position with
  | zero => exact ⟨fun _ => ⟨position, .none position⟩, fun _ => rfl⟩
  | succ steps ih =>
    have hround : (∃ r, Rounds c g config dump position (steps + 1) r) ↔
        ∃ q, next? c g config dump position = some q ∧ ∃ r, Rounds c g config dump q steps r := by
      constructor
      · rintro ⟨r, hrounds⟩
        cases hrounds with
        | round hnext hrest => exact ⟨_, hnext, r, hrest⟩
      · rintro ⟨q, hnext, r, hrest⟩
        exact ⟨r, .round hnext hrest⟩
    rw [hround, framesFrom]
    simp only [next?, frameFrom?, List.size_toArray]
    split
    · simp
    · cases haddress : returnAddressAt? dump.toArray position with
      | none => simp
      | some address =>
        cases hframe : (frameAt c g config address).result with
        | error e => simp [hframe, Except.toOption]
        | ok frame =>
          simp only [hframe, Except.toOption, Option.bind_some, Option.map_some, Option.some.injEq,
            exists_eq_left', ← ih]
          cases (framesFrom c g config dump.toArray steps
            (position + Trace.span config.returnAddressBytes frame)).result with
          | error e => simp [Except.map]
          | ok frames => simp [Except.map]

/-! ### Moving forward -/

/-- Every round of the walk through the dump moves forward. -/
def Advances (c : Catalogue n) (g : CallGraph n) (config : Config) (dump : List UInt8) : Prop :=
  ∀ k p q, Rounds c g config dump 2 k p → next? c g config dump p = some q → p < q

/-- There are no more rounds than bytes behind the stack pointer. A round that begins after `k`
others is the one with the number `k + 1`. -/
def EndsInTime (c : Catalogue n) (g : CallGraph n) (config : Config) (dump : List UInt8) : Prop :=
  ∀ k p, Rounds c g config dump 2 k p → p + 2 ≤ dump.length → k + 1 ≤ dump.length - 2

/-- Return addresses have no bytes, and the walk comes to a frame without bytes of its own. -/
def Stalls (c : Catalogue n) (g : CallGraph n) (config : Config) (dump : List UInt8) : Prop :=
  config.returnAddressBytes = 0 ∧ ∃ k p frame, Rounds c g config dump 2 k p ∧
    frameFrom? c g config dump p = some frame ∧ frame.bytesUsed ≤ 0

theorem advances_of_not_stalls (hbytes : 0 ≤ config.returnAddressBytes)
    (h : ¬ Stalls c g config dump) : Advances c g config dump := by
  intro k p q hrounds hnext
  obtain ⟨frame, hframe, rfl⟩ := Option.map_eq_some_iff.1 hnext
  by_contra hstay
  rw [Trace.span] at hstay
  refine h ⟨by omega, k, p, frame, hrounds, hframe, by omega⟩

theorem Advances.le_position (h : Advances c g config dump)
    (hrounds : Rounds c g config dump 2 k p) : 2 + (k : Int) ≤ p := by
  induction k generalizing p with
  | zero =>
    cases hrounds
    exact Int.le_refl _
  | succ k ih =>
    obtain ⟨q, hq, hnext⟩ := hrounds.exists_last
    have hbefore := ih hq
    have hforward := h k q p hq hnext
    omega

theorem Advances.endsInTime (h : Advances c g config dump) : EndsInTime c g config dump := by
  intro k p hrounds hbegins
  have hposition := h.le_position hrounds
  omega

/-- A frame that spans nothing is found again and again. -/
theorem Stalls.exists_rounds (h : Stalls c g config dump) (m : Nat) :
    ∃ k p, m ≤ k ∧ Rounds c g config dump 2 k p ∧ next? c g config dump p = some p := by
  obtain ⟨hbytes, k, p, frame, hrounds, hframe, hused⟩ := h
  have hspan : Trace.span config.returnAddressBytes frame = 0 := by
    rw [Trace.span]
    omega
  have hstay : next? c g config dump p = some p := by
    rw [next?, hframe, Option.map_some, hspan, Int.add_zero]
  exact ⟨k + m, p, Nat.le_add_left m k, hrounds.stay hstay m, hstay⟩

theorem Stalls.not_advances (h : Stalls c g config dump) : ¬ Advances c g config dump := by
  intro hadvances
  obtain ⟨k, p, -, hrounds, hstay⟩ := h.exists_rounds 0
  exact Int.lt_irrefl _ (hadvances k p p hrounds hstay)

theorem Stalls.not_endsInTime (h : Stalls c g config dump) : ¬ EndsInTime c g config dump := by
  intro hends
  obtain ⟨k, p, hk, hrounds, hstay⟩ := h.exists_rounds dump.length
  have hround := hends k p hrounds (lt_length_of_next? hstay)
  omega

theorem trace_endless_iff (hdump : 2 ≤ dump.length) :
    (trace c g config dump).result = .error .endless ↔
      ∃ r, Rounds c g config dump 2 (2 * dump.length) r := by
  rw [← framesFrom_endless_iff]
  match dump, hdump with
  | low :: high :: rest, _ =>
    simp only [trace]
    cases (framesFrom c g config (low :: high :: rest).toArray
      (2 * (low :: high :: rest).length) 2).result with
    | error e => simp [Except.map]
    | ok frames => simp [Except.map]

theorem EndsInTime.not_endless (h : EndsInTime c g config dump) (hdump : 2 ≤ dump.length) :
    (trace c g config dump).result ≠ .error .endless := by
  rw [Ne, trace_endless_iff hdump]
  rintro ⟨r, hrounds⟩
  obtain ⟨m, hm⟩ : ∃ m, 2 * dump.length = m + 1 := ⟨2 * dump.length - 1, by omega⟩
  rw [hm] at hrounds
  obtain ⟨q, hq, hnext⟩ := hrounds.exists_last
  have hround := h m q hq (lt_length_of_next? hnext)
  omega

theorem Stalls.endless (h : Stalls c g config dump) (hdump : 2 ≤ dump.length) :
    (trace c g config dump).result = .error .endless := by
  obtain ⟨k, p, hk, hrounds, -⟩ := h.exists_rounds (2 * dump.length)
  exact (trace_endless_iff hdump).2 (hrounds.exists_of_le hk)

/-- With sound settings, all rounds of the walk through a dump move forward, and there are no more
of them than bytes behind the stack pointer, unless return addresses have no bytes and the walk
comes to a frame that has none either. Then, and only then, the trace does not end. -/
theorem trace_ends_iff (c : Catalogue n) (g : CallGraph n) (config : Config) (dump : List UInt8)
    (hsound : config.problems = []) (hdump : 2 ≤ dump.length) :
    (Advances c g config dump ↔ ¬ Stalls c g config dump) ∧
      (EndsInTime c g config dump ↔ ¬ Stalls c g config dump) ∧
      ((trace c g config dump).result = .error .endless ↔ Stalls c g config dump) := by
  have hforward : ¬ Stalls c g config dump → Advances c g config dump :=
    advances_of_not_stalls (Config.returnAddressBytes_nonneg hsound)
  refine ⟨⟨?_, hforward⟩, ⟨?_, fun h => (hforward h).endsInTime⟩, ?_, fun h => h.endless hdump⟩
  · exact fun h hstalls => hstalls.not_advances h
  · exact fun h hstalls => hstalls.not_endsInTime h
  · intro hendless
    by_contra hstalls
    exact (hforward hstalls).endsInTime.not_endless hdump hendless

/-! ### A routine that takes no stack

It is left by a call whose return address has no bytes, so that the first round ends where it
began. -/

def idleLines : List String :=
  "00000100 <idle>:" :: List.replicate 64 " 100:\t00 00       \tnop"

def idle : Catalogue 1 :=
  Catalogue.ofList [{ name := "idle", start := 0x100, lines := idleLines.toArray }]

def idleGraph : CallGraph 1 := { order := #[0], callerIndex := #v[[]], roots := [0] }

def bareReturns : Config := { returnAddressBytes := 0 }

def idleDump : List UInt8 := [0x00, 0x00, 0x00, 0x81]

theorem build_idle : (CallGraph.build idle [0]).result = .ok idleGraph := by cbv

theorem stalls_idle :
    Stalls (CallGraph.build idle [0]).catalogue idleGraph bareReturns idleDump := by
  have hframe : frameFrom? (CallGraph.build idle [0]).catalogue idleGraph bareReturns idleDump 2 =
      some ⟨some "idle", 0x102, 0⟩ := by decide +kernel
  exact ⟨rfl, 0, 2, _, .none 2, hframe, Int.le_refl _⟩

theorem trace_ends_iff_idle :
    bareReturns.problems = [] ∧ 2 ≤ idleDump.length ∧
      (CallGraph.build idle [0]).result = .ok idleGraph ∧
      ¬ Advances (CallGraph.build idle [0]).catalogue idleGraph bareReturns idleDump ∧
      (trace (CallGraph.build idle [0]).catalogue idleGraph bareReturns idleDump).result =
        .error .endless ∧
      Advances (CallGraph.build idle [0]).catalogue idleGraph {} idleDump ∧
      EndsInTime (CallGraph.build idle [0]).catalogue idleGraph {} idleDump := by
  have hbare : bareReturns.problems = [] := by decide
  have hdefault : ({} : Config).problems = [] := by decide
  have hdump : 2 ≤ idleDump.length := by decide
  obtain ⟨hadvances, -, hendless⟩ := trace_ends_iff (CallGraph.build idle [0]).catalogue idleGraph
    bareReturns idleDump hbare hdump
  obtain ⟨hadvances', hends', -⟩ := trace_ends_iff (CallGraph.build idle [0]).catalogue idleGraph
    {} idleDump hdefault hdump
  have hgoes : ¬ Stalls (CallGraph.build idle [0]).catalogue idleGraph {} idleDump :=
    fun h => absurd h.1 (by decide)
  exact ⟨hbare, hdump, build_idle, fun h => hadvances.1 h stalls_idle, hendless.2 stalls_idle,
    hadvances'.2 hgoes, hends'.2 hgoes⟩

/-- Sound settings do not ensure that a walk moves forward, or that it ends. -/
theorem not_forall_trace_advances :
    ¬ ∀ (n : Nat) (c : Catalogue n) (table : List (Fin n)) (g : CallGraph n) (config : Config)
      (dump : List UInt8), c.Keyed table → (CallGraph.build c table).result = .ok g →
      config.problems = [] → 2 ≤ dump.length →
      Advances (CallGraph.build c table).catalogue g config dump ∧
        EndsInTime (CallGraph.build c table).catalogue g config dump := by
  intro h
  obtain ⟨hadvances, -⟩ := h 1 idle [0] idleGraph bareReturns idleDump
    (List.nodup_singleton _) build_idle (by decide) (by decide)
  exact stalls_idle.not_advances hadvances

end Dump
end StackDepth
