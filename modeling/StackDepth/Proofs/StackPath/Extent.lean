import Mathlib
import StackDepth.Proofs.StackPath.Monotonicity
import StackDepth.Proofs.StackPath.VisitSet

/-!
# How far a walk goes

A graph may have cycles of any shape, and a routine may be entered again and again on different
ways, so that neither the routines nor the calls bound the number of rounds. What decreases is the
cost of the state, to which every frame on the stack adds what its pending callees may still take.
This gives a bound on the rounds (`WalkRound.add_cost_lt`), and the last round brings the result.

The stack and the paths are bounded by what is within reach. A walk enters a routine along calls of
routines that were not visited before it began (`Catalogue.freshStarts`), and no address twice on
one way. So there are at most as many frames as there are such addresses, and a path has one more
node at most, where it is cut off.
-/
namespace StackDepth

variable {n : Nat}

namespace Catalogue

/-- A call of a routine that is not visited. -/
def FreshCalls (c : Catalogue n) (visiting : AddressSet) (i j : Fin n) : Prop :=
  c.start i ∉ visiting ∧ c.Calls i j

/-- The addresses outside the visit set of the routines that can be reached from a routine along
calls of routines that are not visited. -/
def freshStarts (c : Catalogue n) (root : Fin n) (visiting : AddressSet) : Set Int :=
  {a | a ∉ visiting ∧ ∃ i, Relation.ReflTransGen (c.FreshCalls visiting) root i ∧ c.start i = a}

/-- The addresses outside the visit set of the routines that can be reached from a routine. -/
def startsWithin (c : Catalogue n) (root : Fin n) (visiting : AddressSet) : Set Int :=
  {a | a ∉ visiting ∧ ∃ i, Relation.ReflTransGen c.Calls root i ∧ c.start i = a}

variable {c : Catalogue n} {root : Fin n} {visiting : AddressSet}

theorem finite_startsWithin (c : Catalogue n) (root : Fin n) (visiting : AddressSet) :
    (c.startsWithin root visiting).Finite := by
  refine (Set.finite_range c.start).subset ?_
  rintro a ⟨-, i, -, rfl⟩
  exact ⟨i, rfl⟩

theorem freshStarts_subset (c : Catalogue n) (root : Fin n) (visiting : AddressSet) :
    c.freshStarts root visiting ⊆ c.startsWithin root visiting := by
  have hmono : c.FreshCalls visiting ≤ c.Calls := fun _ _ hcalls => hcalls.2
  rintro a ⟨ha, i, hreach, rfl⟩
  exact ⟨ha, i, Relation.ReflTransGen.mono hmono root i hreach, rfl⟩

theorem finite_freshStarts (c : Catalogue n) (root : Fin n) (visiting : AddressSet) :
    (c.freshStarts root visiting).Finite :=
  (c.finite_startsWithin root visiting).subset (c.freshStarts_subset root visiting)

theorem start_mem_freshStarts (h : c.start root ∉ visiting) :
    c.start root ∈ c.freshStarts root visiting :=
  ⟨h, root, .refl, rfl⟩

/-- Behind a routine that has been entered there are fewer addresses to reach. -/
theorem ncard_freshStarts_lt {i j : Fin n} (hfresh : c.start i ∉ visiting) (hcalls : c.Calls i j) :
    (c.freshStarts j (visiting.insert (c.start i))).ncard < (c.freshStarts i visiting).ncard := by
  have hmono : c.FreshCalls (visiting.insert (c.start i)) ≤ c.FreshCalls visiting :=
    fun x y hxy => ⟨fun hx => hxy.1 (AddressSet.mem_insert.2 (.inr hx)), hxy.2⟩
  have hsub : c.freshStarts j (visiting.insert (c.start i)) ⊆ c.freshStarts i visiting := by
    rintro a ⟨ha, k, hreach, rfl⟩
    rw [AddressSet.mem_insert, not_or] at ha
    exact ⟨ha.2, k, .head ⟨hfresh, hcalls⟩ (Relation.ReflTransGen.mono hmono j k hreach), rfl⟩
  have hnot : c.start i ∉ c.freshStarts j (visiting.insert (c.start i)) :=
    fun hmem => hmem.1 (AddressSet.mem_insert.2 (.inl rfl))
  have hssub := (Set.ssubset_iff_of_subset hsub).2 ⟨_, start_mem_freshStarts hfresh, hnot⟩
  exact Set.ncard_lt_ncard hssub (c.finite_freshStarts i visiting)

end Catalogue

/-- The routine of the frame can be reached along calls of routines that are not visited, and what
is pending are callees of it. -/
structure Frame.Within (c : Catalogue n) (root : Fin n) (visiting : AddressSet) (f : Frame n) :
    Prop where
  reached : Relation.ReflTransGen (c.FreshCalls visiting) root f.node.routine
  pending : ∀ j ∈ f.pending, c.Calls f.node.routine j

namespace WalkRound

open WalkState

variable {c : Catalogue n} {config : Config} {keep : Keep} {root : Fin n} {visiting : AddressSet}
variable {k : Nat} {s : WalkState n}

/-- Every round is paid for by the cost of the state. -/
theorem add_cost_lt (h : WalkRound c config keep root visiting k s) :
    k + s.cost c < entryCost (degree c) (unvisited c visiting) := by
  induction h with
  | first henter =>
    have hless := cost_enter_lt henter
    simp only [cost, stack, stackCost]
    omega
  | next _ hstep ih =>
    have hless := cost_step_lt hstep
    omega

/-- One of the rounds that follow brings the result of the walk. -/
theorem exists_last (h : WalkRound c config keep root visiting k s) :
    ∃ m t, WalkRound c config keep root visiting m t ∧
      t.step c config keep = .inr (walk c config keep root visiting) := by
  induction hcost : s.cost c using Nat.strongRecOn generalizing k s with
  | ind cost ih =>
  subst hcost
  cases hstep : s.step c config keep with
  | inl t => exact ih _ (cost_step_lt hstep) (h.next hstep) rfl
  | inr result =>
    refine ⟨k, s, h, ?_⟩
    rw [h.walk_eq_run, run_inr hstep, hstep]

theorem within (h : WalkRound c config keep root visiting k s) :
    ∀ f ∈ s.stack, f.Within c root visiting := by
  induction h with
  | @first f henter =>
    obtain ⟨-, rfl, hcallees⟩ := enter_frame henter
    intro f' hf'
    rw [List.mem_singleton.1 hf']
    exact ⟨.refl, fun j hj => ⟨f.pending, hcallees, hj⟩⟩
  | @next k s t hround hstep ih =>
    obtain ⟨htop, hbelow⟩ := List.forall_mem_cons.1 ih
    rcases step_cases hstep with ⟨callee, later, path, hpending, -, rfl⟩ |
      ⟨callee, later, f, hpending, henter, rfl⟩ | ⟨parent, below, -, hparent, rfl⟩
    · refine List.forall_mem_cons.2 ⟨⟨htop.reached, fun j hj => ?_⟩, hbelow⟩
      exact htop.pending j (hpending ▸ List.mem_cons_of_mem _ hj)
    · obtain ⟨-, rfl, hcallees⟩ := enter_frame henter
      have hfresh : s.top.start c ∉ visiting := hround.tracks.fresh _ List.mem_cons_self
      have hcalls := htop.pending f.node.routine (hpending ▸ List.mem_cons_self)
      refine List.forall_mem_cons.2 ⟨?_, List.forall_mem_cons.2 ⟨?_, hbelow⟩⟩
      · exact ⟨htop.reached.tail ⟨hfresh, hcalls⟩, fun j hj => ⟨f.pending, hcallees, hj⟩⟩
      · exact ⟨htop.reached, fun j hj => htop.pending j (hpending ▸ List.mem_cons_of_mem _ hj)⟩
    · rw [hparent] at hbelow
      obtain ⟨hfirst, hrest⟩ := List.forall_mem_cons.1 hbelow
      exact List.forall_mem_cons.2 ⟨⟨hfirst.reached, hfirst.pending⟩, hrest⟩

theorem length_stack_le (h : WalkRound c config keep root visiting k s) :
    s.stack.length ≤ (c.freshStarts root visiting).ncard := by
  have hsub : (↑(s.starts c).toFinset : Set Int) ⊆ c.freshStarts root visiting := by
    intro a ha
    rw [Finset.mem_coe, List.mem_toFinset] at ha
    obtain ⟨f, hf, rfl⟩ := List.mem_map.1 ha
    exact ⟨h.tracks.fresh _ ha, f.node.routine, (h.within f hf).reached, rfl⟩
  calc s.stack.length
      = (s.starts c).toFinset.card := by
        rw [List.toFinset_card_of_nodup h.tracks.distinct, starts, List.length_map]
    _ = (↑(s.starts c).toFinset : Set Int).ncard := (Set.ncard_coe_finset _).symm
    _ ≤ (c.freshStarts root visiting).ncard :=
        Set.ncard_le_ncard hsub (c.finite_freshStarts root visiting)

end WalkRound

/-- Each routine on a trail but the last one takes an address that the later ones cannot take. -/
theorem Trail.length_le {c : Catalogue n} {visiting : AddressSet} {i : Fin n}
    {tail : List (Fin n)} {recursive : Bool} (h : Trail c visiting i tail recursive) :
    tail.length ≤ (c.freshStarts i visiting).ncard := by
  induction h with
  | cut => exact Nat.zero_le _
  | leaf => exact Nat.zero_le _
  | call hfresh hcalls _ ih =>
    have hless := Catalogue.ncard_freshStarts_lt hfresh hcalls
    rw [List.length_cons]
    omega

theorem length_nodes_le {c : Catalogue n} {config : Config} {keep : Keep} {visiting : AddressSet}
    {running : Int} {i : Fin n} {paths : PathList n} {p : StackPath n}
    (h : expand c config keep visiting running i = .ok paths) (hp : p ∈ paths.toList) :
    p.nodes.length ≤ (c.freshStarts i visiting).ncard + 1 := by
  obtain ⟨tail, recursive, htrail, rfl⟩ := exists_trail_of_mem_expand h hp
  have hchain := congrArg List.length (StackPath.chain_along c config recursive running i tail)
  rw [StackPath.chain, List.length_map, List.length_cons] at hchain
  rw [hchain]
  exact Nat.succ_le_succ htrail.length_le

/-- A walk for all paths or for the worst one comes to an end, from every routine of a catalogue and
with any addresses visited before. It has fewer rounds than a number that depends on the catalogue
and the visit set alone, and one of them brings the result, unless the routine is not entered and
there are none. The stack never holds more frames than there are addresses within reach outside the
visit set, and the paths found have one more node at most. -/
theorem walk_ends_within_reach (c : Catalogue n) (config : Config) (keep : Keep) (root : Fin n)
    (visiting : AddressSet) :
    let reach := (c.freshStarts root visiting).ncard
    (∀ k s, WalkRound c config keep root visiting k s →
      k < WalkState.entryCost (WalkState.degree c) (WalkState.unvisited c visiting)) ∧
    ((∃ k s, WalkRound c config keep root visiting k s ∧
        s.step c config keep = .inr (walk c config keep root visiting)) ∨
      ∀ k s, ¬ WalkRound c config keep root visiting k s) ∧
    (∀ k s, WalkRound c config keep root visiting k s → s.stack.length ≤ reach) ∧
    (∀ paths, (walk c config keep root visiting).outcome = .ok paths →
      ∀ p ∈ paths.toList, p.nodes.length ≤ reach + 1) ∧
    reach ≤ (c.startsWithin root visiting).ncard := by
  intro reach
  refine ⟨?_, ?_, fun k s hround => hround.length_stack_le, ?_, ?_⟩
  · intro k s hround
    have hpaid := hround.add_cost_lt
    omega
  · by_cases hround : ∃ k s, WalkRound c config keep root visiting k s
    · obtain ⟨k, s, hround⟩ := hround
      exact .inl hround.exists_last
    · push Not at hround
      exact .inr hround
  · intro paths hpaths p hp
    rw [walk_eq_expand] at hpaths
    exact length_nodes_le hpaths hp
  · exact Set.ncard_le_ncard (c.freshStarts_subset root visiting)
      (c.finite_startsWithin root visiting)

theorem freshStarts_loopedCalls :
    loopedCalls.freshStarts 0 (.ofList [0x30]) = {0x10, 0x20} := by
  ext a
  constructor
  · rintro ⟨ha, i, -, rfl⟩
    revert i
    decide
  · rintro (rfl | rfl)
    · exact Catalogue.start_mem_freshStarts (by decide)
    · refine ⟨by decide, 1, .single ⟨by decide, ?_⟩, rfl⟩
      exact ⟨_, rfl, by decide⟩

/-- Three routines call one another, one of them visited before; the stack holds two frames, and the
worst path has three nodes. -/
theorem walk_ends_within_reach_loopedCalls :
    (loopedCalls.freshStarts 0 (.ofList [0x30])).ncard = 2 ∧
      (∃ s, WalkRound loopedCalls {} .worst 0 (.ofList [0x30]) 2 s ∧
        2 < WalkState.entryCost (WalkState.degree loopedCalls)
          (WalkState.unvisited loopedCalls (.ofList [0x30])) ∧
        s.stack.length ≤ 2 ∧ s.below.length = 1) ∧
      ∃ p, (walk loopedCalls {} .worst 0 (.ofList [0x30])).outcome = .ok ⟨p, []⟩ ∧
        p.nodes.length ≤ 3 ∧ p.chain = [0, 1, 0] := by
  have hreach : (loopedCalls.freshStarts 0 (.ofList [0x30])).ncard = 2 := by
    rw [freshStarts_loopedCalls, Set.ncard_pair (by decide)]
  obtain ⟨htime, -, hstack, hpaths, -⟩ :=
    walk_ends_within_reach loopedCalls {} .worst 0 (.ofList [0x30])
  have hmain : enter loopedCalls {} (.ofList [0x30]) 0 0 =
      .ok (.frame ⟨⟨0, 6, 6, false⟩, [0, 1, 2], none⟩) := by rfl
  have hcut : WalkState.step loopedCalls {} .worst
        ⟨(AddressSet.ofList [0x30]).insert 0x10, ⟨⟨0, 6, 6, false⟩, [0, 1, 2], none⟩, []⟩ =
      .inl ⟨.ofList [0x10, 0x30],
        ⟨⟨0, 6, 6, false⟩, [1, 2], some ⟨⟨⟨0, 6, 12, true⟩, [], 6⟩, []⟩⟩, []⟩ := by rfl
  have hwork : WalkState.step loopedCalls {} .worst
        ⟨.ofList [0x10, 0x30],
          ⟨⟨0, 6, 6, false⟩, [1, 2], some ⟨⟨⟨0, 6, 12, true⟩, [], 6⟩, []⟩⟩, []⟩ =
      .inl ⟨.ofList [0x10, 0x20, 0x30], ⟨⟨1, 3, 9, false⟩, [0, 1, 2], none⟩,
        [⟨⟨0, 6, 6, false⟩, [2], some ⟨⟨⟨0, 6, 12, true⟩, [], 6⟩, []⟩⟩]⟩ := by rfl
  have hround := WalkRound.next (.next (.first hmain) hcut) hwork
  have hworst : (walk loopedCalls {} .worst 0 (.ofList [0x30])).outcome =
      .ok ⟨⟨⟨0, 6, 6, false⟩, [⟨1, 3, 9, false⟩, ⟨0, 6, 15, true⟩], 15⟩, []⟩ := by cbv
  have hnodes := hpaths _ hworst _ List.mem_cons_self
  have hframes := hstack 2 _ hround
  rw [hreach] at hnodes hframes
  exact ⟨hreach, ⟨_, hround, htime 2 _ hround, hframes, rfl⟩, _, hworst, hnodes, rfl⟩

end StackDepth
