import Mathlib
import StackDepth.Proofs.StackPath.Expansion

/-!
# The visit set in the course of a walk

A walk goes in rounds: once the routine where it starts has been entered, each round takes one step.
A round keeps the frames on the stack and the visit set, or puts a frame on top and its address into
the set, or takes both away again (`WalkState.step_cases`). A frame is only put on top if its
address is not visited. So in every round the visit set is what it was when the walk began, together
with the addresses of the frames on the stack, each of which was put there by one frame
(`WalkRound.tracks`).

This is why the visit set can be restored wherever the walk ends. A frame that is taken off leaves
nothing behind, and where the walk fails, the addresses of the frames on the stack are all there is
to remove.
-/
namespace StackDepth

variable {n : Nat}

/-- The walk from a routine begins a round in a state, with so many rounds behind it. -/
inductive WalkRound (c : Catalogue n) (config : Config) (keep : Keep) (root : Fin n)
    (visiting : AddressSet) : Nat → WalkState n → Prop
  | first {f : Frame n} : enter c config visiting root 0 = .ok (.frame f) →
      WalkRound c config keep root visiting 0
        { visiting := visiting.insert (c.start root), top := f, below := [] }
  | next {k : Nat} {s t : WalkState n} : WalkRound c config keep root visiting k s →
      s.step c config keep = .inl t → WalkRound c config keep root visiting (k + 1) t

namespace WalkState

variable {c : Catalogue n} {config : Config} {keep : Keep} {visiting : AddressSet}
variable {s t : WalkState n}

/-- The addresses of the frames on the stack, the uppermost first. -/
def starts (c : Catalogue n) (s : WalkState n) : List Int := s.stack.map (Frame.start c)

/-- The visit set is the one that was given together with the addresses of the frames on the
stack. These are all different, and none of them was given. -/
structure Tracks (c : Catalogue n) (visiting : AddressSet) (s : WalkState n) : Prop where
  mem_visiting : ∀ a, a ∈ s.visiting ↔ a ∈ visiting ∨ a ∈ s.starts c
  distinct : (s.starts c).Nodup
  fresh : ∀ a ∈ s.starts c, a ∉ visiting

namespace Tracks

theorem push {a : Int} (h : s.Tracks c visiting) (ha : a ∉ s.visiting)
    (hvisiting : t.visiting = s.visiting.insert a) (hstarts : t.starts c = a :: s.starts c) :
    t.Tracks c visiting := by
  rw [h.mem_visiting, not_or] at ha
  constructor
  · intro b
    rw [hvisiting, hstarts, AddressSet.mem_insert, h.mem_visiting, List.mem_cons]
    tauto
  · rw [hstarts]
    exact List.nodup_cons.2 ⟨ha.2, h.distinct⟩
  · rw [hstarts]
    exact List.forall_mem_cons.2 ⟨ha.1, h.fresh⟩

theorem pop {a : Int} (h : s.Tracks c visiting) (hvisiting : t.visiting = s.visiting.erase a)
    (hstarts : s.starts c = a :: t.starts c) : t.Tracks c visiting := by
  have hdistinct := h.distinct
  have hfresh := h.fresh
  rw [hstarts, List.nodup_cons] at hdistinct
  rw [hstarts, List.forall_mem_cons] at hfresh
  refine ⟨fun b => ?_, hdistinct.2, hfresh.2⟩
  rw [hvisiting, AddressSet.mem_erase, h.mem_visiting, hstarts, List.mem_cons]
  constructor
  · rintro ⟨hne, hb | rfl | hb⟩
    · exact .inl hb
    · exact absurd rfl hne
    · exact .inr hb
  · rintro (hb | hb)
    · exact ⟨fun heq => hfresh.1 (heq ▸ hb), .inl hb⟩
    · exact ⟨fun heq => hdistinct.1 (heq ▸ hb), .inr (.inr hb)⟩

theorem step (h : s.Tracks c visiting) (hstep : s.step c config keep = .inl t) :
    t.Tracks c visiting := by
  rcases step_cases hstep with ⟨callee, later, path, -, -, rfl⟩ |
    ⟨callee, later, f, -, henter, rfl⟩ | ⟨parent, below, -, hbelow, rfl⟩
  · exact ⟨h.mem_visiting, h.distinct, h.fresh⟩
  · obtain ⟨hcallee, hroutine, -⟩ := enter_frame henter
    refine h.push hcallee rfl ?_
    simp only [starts, stack, List.map_cons, Frame.start, hroutine]
  · refine h.pop rfl ?_
    simp only [starts, stack, hbelow, List.map_cons]
    rfl

end Tracks
end WalkState

namespace WalkRound

variable {c : Catalogue n} {config : Config} {keep : Keep} {root : Fin n} {visiting : AddressSet}
variable {k : Nat} {s : WalkState n}

theorem tracks (h : WalkRound c config keep root visiting k s) : s.Tracks c visiting := by
  induction h with
  | first henter =>
    obtain ⟨hroot, hroutine, -⟩ := WalkState.enter_frame henter
    constructor
    · intro a
      simp only [WalkState.starts, WalkState.stack, List.map_cons, List.map_nil, Frame.start,
        hroutine, AddressSet.mem_insert, List.mem_singleton]
      exact or_comm
    · exact List.nodup_singleton _
    · simpa only [WalkState.starts, WalkState.stack, List.map_cons, List.map_nil, Frame.start,
        hroutine, List.forall_mem_singleton] using hroot
  | next _ hstep ih => exact ih.step hstep

/-- The walk goes on from each of its rounds to its result. -/
theorem walk_eq_run (h : WalkRound c config keep root visiting k s) :
    walk c config keep root visiting = s.run c config keep := by
  induction h with
  | first henter => simp only [walk, henter]
  | next _ hstep ih => exact ih.trans (WalkState.run_inl hstep)

end WalkRound

/-- A walk for all paths either returns them or fails at a routine that it enters and whose callees
are not known. Either way it leaves the visit set as it was given. In every round from which it goes
on, the set holds the addresses that were given and those of the frames on the stack, which are all
different and were not given. -/
theorem pathsWithin_restores_visiting (c : Catalogue n) (config : Config) (root : Fin n)
    (visiting : AddressSet) :
    ((∃ paths, pathsWithin c config root visiting = ⟨.ok paths, visiting⟩) ∨
      ∃ i, Entered c visiting root i ∧ c.callees? i = none ∧
        pathsWithin c config root visiting =
          ⟨.error (.unresolved (c.routine i).name), visiting⟩) ∧
    ∀ k s, WalkRound c config .all root visiting k s →
      pathsWithin c config root visiting = s.run c config .all ∧
      (∀ a, a ∈ s.visiting ↔ a ∈ visiting ∨ a ∈ s.stack.map (Frame.start c)) ∧
      (s.stack.map (Frame.start c)).Nodup ∧
      ∀ a ∈ s.stack.map (Frame.start c), a ∉ visiting := by
  constructor
  · rw [pathsWithin, walk_eq_expand]
    cases hexpand : expand c config .all visiting 0 root with
    | ok paths => exact .inl ⟨paths, rfl⟩
    | error e =>
      obtain ⟨i, hentered, hcallees, rfl⟩ := exists_entered_of_expand_error hexpand
      exact .inr ⟨i, hentered, hcallees, rfl⟩
  · intro k s hround
    have htracks := hround.tracks
    exact ⟨hround.walk_eq_run, htracks.mem_visiting, htracks.distinct, htracks.fresh⟩

/-- A routine that calls two others. These share an address; the first calls back, and the callees
of the second are not known. -/
def sharedStart : Catalogue 3 :=
  { Catalogue.ofList
      [{ name := "main", start := 0x10 }, { name := "work", start := 0x20 },
       { name := "twin", start := 0x20 }] with
    resolved := .ofFn fun i =>
      if i.val = 2 then none
      else some ((List.finRange 3).filter fun j => decide (i.val = 0) != decide (j.val = 0)) }

/-- The walk enters `work`, leaves it and fails at `twin`. -/
theorem pathsWithin_restores_visiting_sharedStart :
    pathsWithin sharedStart {} 0 (.ofList [0x99]) =
        ⟨.error (.unresolved "twin"), .ofList [0x99]⟩ ∧
      ∃ s, WalkRound sharedStart {} .all 0 (.ofList [0x99]) 1 s ∧
        s.stack.map (Frame.start sharedStart) = [0x20, 0x10] ∧
        0x20 ∈ s.visiting ∧ 0x30 ∉ s.visiting := by
  obtain ⟨hends, hrounds⟩ := pathsWithin_restores_visiting sharedStart {} 0 (.ofList [0x99])
  have houtcome : (pathsWithin sharedStart {} 0 (.ofList [0x99])).outcome =
      .error (.unresolved "twin") := by cbv
  have hmain : enter sharedStart {} (.ofList [0x99]) 0 0 =
      .ok (.frame ⟨⟨0, 2, 2, false⟩, [1, 2], none⟩) := by rfl
  have hwork : WalkState.step sharedStart {} .all
        ⟨(AddressSet.ofList [0x99]).insert 0x10, ⟨⟨0, 2, 2, false⟩, [1, 2], none⟩, []⟩ =
      .inl ⟨.ofList [0x10, 0x20, 0x99], ⟨⟨1, 2, 4, false⟩, [0], none⟩,
        [⟨⟨0, 2, 2, false⟩, [2], none⟩]⟩ := by rfl
  have hround := WalkRound.next (.first hmain) hwork
  obtain ⟨-, hmem, -, -⟩ := hrounds 1 _ hround
  refine ⟨?_, _, hround, rfl, (hmem 0x20).2 (.inr (by decide)), ?_⟩
  · rcases hends with ⟨paths, hpaths⟩ | ⟨i, -, -, herror⟩
    · rw [hpaths] at houtcome
      cases houtcome
    · rw [herror] at houtcome ⊢
      exact congrArg (WalkResult.mk · _) houtcome
  · rw [hmem]
    decide

end StackDepth
