import InfoFlow.Proofs.FirstCome
import InfoFlow.Proofs.StackMoves

/-! # Labels grow up the stack

Whatever is done to a context, a region has all that its surroundings have: it starts with the label of the frame
around, joins only add to the innermost frame, and what is left are outer frames as they were. The one exception is
a script of an ordinary origin, which does not inherit the policy source from the script that starts it. So no other
source gets lost on the way from the outermost frame to the innermost one, and the program counter has them all. -/

namespace InfoFlow

namespace Label

variable {a b revoked : Label}

theorem covers_without : a.Covers (a.without revoked) :=
  ⟨flowsTo_iff.mpr fun _ ha => (has_without.mp ha).1, id⟩

/-- What is taken away from both sides of an inclusion is not missed. -/
theorem Covers.without (h : b.Covers (a.without revoked)) : (b.without revoked).Covers (a.without revoked) where
  flows := flowsTo_iff.mpr fun _ ha => has_without.mpr ⟨h.flows.has ha, (has_without.mp ha).2⟩
  deferred := h.deferred

theorem Covers.of_inherited {ordinary : Bool} (h : b.Covers (a.inherited ordinary)) : b.Covers (a.without policy) := by
  cases ordinary with
  | true => exact h
  | false => exact h.trans covers_without

end Label

/-- Which frames are those of ordinary scripts, after an operation that leaves a stack of the given depth. A frame
that was not there before has been opened by that operation. -/
def marksAfter (ordinary : List Bool) (mark : Bool) (depth : Nat) : List Bool := (ordinary ++ [mark]).take depth

namespace Stack

/-- Every frame has what it inherits from the frame around. The list tells of each frame but the outermost one
whether it is that of an ordinary script. -/
structure Grows (ordinary : List Bool) (s : Stack) : Prop where
  length : ordinary.length = s.depth
  next : ∀ (i : Nat) (mark : Bool) (outer inner : Frame), ordinary[i]? = some mark → s.frames[i]? = some outer →
    s.frames[i + 1]? = some inner → inner.label.Covers (outer.label.inherited mark)

variable {ordinary : List Bool} {mark : Bool} {s t : Stack}

theorem getElem?_frames_of_lt {i : Nat} (h : i < s.depth) : s.frames[i]? = s.below.reverse[i]? := by
  have hlength : i < s.below.reverse.length := by
    rw [List.length_reverse]
    exact h
  rw [frames_eq, List.getElem?_append_left hlength]

namespace Grows

theorem openFrame (h : s.Grows ordinary) {f : Frame} (hf : f.label.Covers (s.head.inherited mark)) :
    Grows (marksAfter ordinary mark (s.depth + 1)) ⟨f, s.top :: s.below⟩ := by
  have hlength : (ordinary ++ [mark]).length = s.depth + 1 := by
    rw [List.length_append, h.length]
    rfl
  have hframes : frames ⟨f, s.top :: s.below⟩ = s.frames ++ [f] := List.reverse_cons
  rw [marksAfter, List.take_of_length_le (Nat.le_of_eq hlength)]
  refine ⟨hlength, fun i m outer inner hm houter hinner => ?_⟩
  have hi : i < s.depth + 1 := hlength ▸ (List.getElem?_eq_some_iff.mp hm).1
  rw [hframes, List.getElem?_append_left (length_frames s ▸ hi)] at houter
  rw [hframes] at hinner
  rcases Nat.lt_or_eq_of_le (Nat.le_of_lt_succ hi) with hlt | rfl
  · have hnext : i + 1 < s.frames.length := length_frames s ▸ Nat.succ_lt_succ hlt
    rw [List.getElem?_append_left (h.length ▸ hlt)] at hm
    rw [List.getElem?_append_left hnext] at hinner
    exact h.next i m outer inner hm houter hinner
  · rw [← h.length, List.getElem?_concat_length] at hm
    rw [← length_frames, List.getElem?_concat_length] at hinner
    obtain rfl := Option.some.inj hm
    obtain rfl := Option.some.inj hinner
    obtain rfl := Option.some.inj ((getElem?_frames_depth s).symm.trans houter)
    exact hf

/-- The frames that are left stay as they are. -/
theorem leave (h : s.Grows ordinary) (hleft : t.top :: t.below <:+ s.top :: s.below) :
    t.Grows (marksAfter ordinary mark t.depth) := by
  have hframes : t.frames <+: s.frames := frames_prefix_of_suffix hleft
  have hle : t.depth ≤ ordinary.length := by
    rw [h.length]
    exact Nat.le_of_succ_le_succ hleft.length_le
  rw [marksAfter, List.take_append_of_le_length hle]
  refine ⟨List.length_take_of_le hle, fun i m outer inner hm houter hinner => ?_⟩
  exact h.next i m outer inner (FirstCome.getElem?_of_prefix (List.take_prefix _ _) hm)
    (FirstCome.getElem?_of_prefix hframes houter) (FirstCome.getElem?_of_prefix hframes hinner)

/-- The innermost frame may take in further sources. -/
theorem raise (h : s.Grows ordinary) (hlabel : t.top.label.Covers s.top.label) (hbelow : t.below = s.below) :
    t.Grows ordinary := by
  have hdepth : t.depth = s.depth := congrArg List.length hbelow
  refine ⟨h.length.trans hdepth.symm, fun i m outer inner hm houter hinner => ?_⟩
  have hi : i < s.depth := h.length ▸ (List.getElem?_eq_some_iff.mp hm).1
  have same {j : Nat} (hj : j < s.depth) : t.frames[j]? = s.frames[j]? := by
    rw [getElem?_frames_of_lt hj, getElem?_frames_of_lt (hdepth ▸ hj), hbelow]
  rw [same hi] at houter
  rcases Nat.lt_or_eq_of_le (Nat.succ_le_of_lt hi) with hlt | (hlast : i + 1 = s.depth)
  · rw [same hlt] at hinner
    exact h.next i m outer inner hm houter hinner
  · have hinnermost : s.frames[i + 1]? = some s.top := hlast ▸ getElem?_frames_depth s
    rw [hlast, ← hdepth] at hinner
    obtain rfl := Option.some.inj ((getElem?_frames_depth t).symm.trans hinner)
    exact hlabel.trans (h.next i m outer s.top hm houter hinnermost)

/-- Every move keeps labels growing up the stack. -/
theorem moves (h : s.Grows ordinary) (hmoves : s.Moves mark t) : t.Grows (marksAfter ordinary mark t.depth) := by
  cases hmoves with
  | opened hlabel _ => exact h.openFrame hlabel
  | left hleft hraised hbelow =>
    have hdepth : t.depth = _ := congrArg List.length hbelow
    rw [hdepth]
    exact (h.leave hleft).raise hraised.label hbelow

/-- Between frames that are further apart nothing gets lost but the policy source. -/
theorem covers_of_lt (h : s.Grows ordinary) {i j : Nat} (hij : i < j) {outer inner : Frame}
    (houter : s.frames[i]? = some outer) (hinner : s.frames[j]? = some inner) :
    inner.label.Covers (outer.label.without .policy) := by
  -- The induction goes up to the inner frame. What it inherits from the frame around has lost the policy source at
  -- most, and that was not counted below either.
  induction j generalizing inner with
  | zero => exact absurd hij (Nat.not_lt_zero i)
  | succ j ih =>
    have hj : j < s.depth := by
      have hlt := (List.getElem?_eq_some_iff.mp hinner).1
      rw [length_frames] at hlt
      exact Nat.lt_of_succ_lt_succ hlt
    obtain ⟨mark, hmark⟩ : ∃ mark, ordinary[j]? = some mark := ⟨_, List.getElem?_eq_getElem (h.length ▸ hj)⟩
    obtain ⟨middle, hmiddle⟩ : ∃ middle, s.frames[j]? = some middle :=
      ⟨_, List.getElem?_eq_getElem (length_frames s ▸ Nat.lt_succ_of_lt hj)⟩
    have hstep := (h.next j mark middle inner hmark hmiddle hinner).of_inherited
    rcases Nat.lt_or_eq_of_le (Nat.le_of_lt_succ hij) with hlt | rfl
    · exact hstep.trans (ih hlt hmiddle).without
    · obtain rfl := Option.some.inj (hmiddle.symm.trans houter)
      exact hstep

end Grows
end Stack

namespace Context

variable {c : Context}

/-- Which frames are those of ordinary scripts after a run of operations, from the outermost frame but one to the
innermost one, where `known` tells it at the start. -/
def ordinaryFrames (c : Context) (known : List Bool) : List Operation → List Bool
  | [] => known
  | op :: ops =>
    (c.perform op).ordinaryFrames
      (marksAfter known (op.startsOrdinary c.registry.isPolicyOrigin) (c.perform op).stack.depth) ops

theorem grows_run {known : List Bool} {ops : List Operation} (h : c.stack.Grows known) :
    (c.run ops).stack.Grows (c.ordinaryFrames known ops) := by
  induction ops generalizing c known with
  | nil => exact h
  | cons op ops ih =>
    have hmoves := c.control.moves_perform c.registry.isPolicyOrigin op
    rw [← control_perform] at hmoves
    exact ih (h.moves hmoves)

/-- How the labels of the open regions lie to each other. The list tells of each frame but the outermost one whether
the start of an ordinary script has opened it. -/
structure LabelsGrow (c : Context) (ordinary : List Bool) : Prop where
  length : ordinary.length = c.stack.depth
  /-- Further up the stack no source is missing but the policy source, and no mark is. -/
  upward : ∀ (i j : Nat) (outer inner : Frame), i < j → c.stack.frames[i]? = some outer →
    c.stack.frames[j]? = some inner →
    (outer.label.without .policy).FlowsTo inner.label ∧ (outer.label.deferred = true → inner.label.deferred = true)
  /-- The policy source is missing only where an ordinary script starts. -/
  next : ∀ (i : Nat) (outer inner : Frame), c.stack.frames[i]? = some outer →
    c.stack.frames[i + 1]? = some inner → ordinary[i]? = some false → outer.label.FlowsTo inner.label
  /-- The program counter has every source of every frame, but for the policy source. -/
  pc : ∀ f ∈ c.stack.frames, (f.label.without .policy).FlowsTo c.pc

theorem labelsGrow_of_grows {ordinary : List Bool} (h : c.stack.Grows ordinary) : c.LabelsGrow ordinary where
  length := h.length
  upward i j outer inner hij houter hinner := by
    have hcovers := h.covers_of_lt hij houter hinner
    exact ⟨hcovers.flows, hcovers.deferred⟩
  next i outer inner houter hinner hmark := (h.next i false outer inner hmark houter hinner).flows
  pc f hf := by
    obtain ⟨i, hi⟩ := List.mem_iff_getElem?.mp hf
    have hlt := (List.getElem?_eq_some_iff.mp hi).1
    rw [Stack.length_frames] at hlt
    rcases Nat.lt_or_eq_of_le (Nat.le_of_lt_succ hlt) with hinside | rfl
    · exact (h.covers_of_lt hinside hi (Stack.getElem?_frames_depth c.stack)).flows
    · obtain rfl := Option.some.inj ((Stack.getElem?_frames_depth c.stack).symm.trans hi)
      exact Label.covers_without.flows

/-- After every run of operations labels grow up the stack, except for the policy source at the start of an ordinary
script. -/
theorem labels_grow (config : Config) (ops : List Operation) :
    LabelsGrow ((ofConfig config).run ops) ((ofConfig config).ordinaryFrames [] ops) := by
  have hstart : (ofConfig config).stack.Grows [] := ⟨rfl, fun _ _ _ _ hmark => nomatch hmark⟩
  exact labelsGrow_of_grows (grows_run hstart)

/-- A policy script starts an ordinary one, which has a branch. Its frame lacks the policy source. -/
example :
    (ofConfig { policyOrigins := ["p"] }).ordinaryFrames []
        [.hook (.enterScript "p"), .hook (.enterScript "a"), .hook (.branch .secret 12 none)] = [false, true, false] ∧
      ((ofConfig { policyOrigins := ["p"] }).run
        [.hook (.enterScript "p"), .hook (.enterScript "a"), .hook (.branch .secret 12 none)]).stack.frames.map
        (·.label) = [.bottom, .policy, .bottom, .secret] := by decide

end Context
end InfoFlow
