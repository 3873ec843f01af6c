import InfoFlow.Proofs.Control

/-! # Regions around a base

A stack is cut into a base, some outermost frames, and the stack that stands on it. As long as an
operation does not leave regions of the base, it acts on the stack above as if the base were not there,
and the base stays as it is. -/

namespace InfoFlow
namespace Stack

variable {p : Frame → Bool} {top : Frame} {below base : List Frame} {t : Stack}

/-! ### Leaving regions -/

/-- The depth loses what is left. -/
theorem leaveCount_add_depth (p : Frame → Bool) :
    ∀ (top : Frame) (below : List Frame), leaveCount p ⟨top, below⟩ + (leaveWhile p top below).depth = below.length
  | _, [] => rfl
  | top, outer :: rest => by
    have ih : ((outer :: rest).dropLast.takeWhile p).length + (leaveWhile p outer rest).depth = rest.length :=
      leaveCount_add_depth p outer rest
    rw [leaveCount, List.dropLast_cons_cons, List.takeWhile_cons, leaveWhile]
    cases p top with
    | true =>
      simp only [if_true, List.length_cons]
      omega
    | false => exact Nat.zero_add _

theorem closeCount_add_depth (s : Stack) (location : Location) :
    s.closeCount location + (s.closeAt location).depth = s.depth := leaveCount_add_depth _ s.top s.below

theorem unwindCount_add_depth (s : Stack) : s.unwindCount + s.unwind.depth = s.depth :=
  leaveCount_add_depth _ s.top s.below

theorem depth_leaveWhile_le (p : Frame → Bool) (top : Frame) (below : List Frame) :
    (leaveWhile p top below).depth ≤ below.length :=
  Nat.le.intro ((Nat.add_comm _ _).trans (leaveCount_add_depth p top below))

theorem depth_leave_le (s : Stack) : s.leave.depth ≤ s.depth := by
  obtain ⟨top, below⟩ := s
  cases below with
  | nil => exact Nat.le_refl _
  | cons outer rest => exact Nat.le_succ _

/-- What is left is what was around. -/
theorem leaveWhile_suffix (p : Frame → Bool) :
    ∀ (top : Frame) (below : List Frame),
      (leaveWhile p top below).top :: (leaveWhile p top below).below <:+ top :: below
  | _, [] => List.suffix_rfl
  | top, outer :: rest => by
    have ih := leaveWhile_suffix p outer rest
    unfold leaveWhile
    split
    · exact ih.trans (List.suffix_cons top (outer :: rest))
    · exact List.suffix_rfl

theorem leave_suffix (s : Stack) : s.leave.top :: s.leave.below <:+ s.top :: s.below := by
  obtain ⟨top, below⟩ := s
  cases below with
  | nil => exact List.suffix_rfl
  | cons outer rest => exact List.suffix_cons top (outer :: rest)

theorem leaveScript_suffix (s : Stack) : s.leaveScript.top :: s.leaveScript.below <:+ s.top :: s.below :=
  (leave_suffix _).trans (leaveWhile_suffix _ s.top s.below)

/-! ### Frames from the outermost on -/

theorem frames_eq (s : Stack) : s.frames = s.below.reverse ++ [s.top] := List.reverse_cons

theorem length_frames (s : Stack) : s.frames.length = s.depth + 1 := by
  rw [frames, List.length_reverse, List.length_cons, depth]

theorem getElem?_frames_depth (s : Stack) : s.frames[s.depth]? = some s.top := by
  rw [frames_eq, depth, ← List.length_reverse, List.getElem?_concat_length]

theorem take_frames_depth (s : Stack) : s.frames.take s.depth = s.below.reverse := by
  rw [frames_eq, depth, ← List.length_reverse, List.take_left]

/-- What is left of a stack are its outermost frames. -/
theorem frames_prefix_of_suffix {s : Stack} (h : t.top :: t.below <:+ s.top :: s.below) : t.frames <+: s.frames :=
  List.reverse_prefix.mpr h

/-! ### A stack on a base -/

/-- The stack `t` on top of the frames `base`, the innermost of them first. -/
def atop (t : Stack) (base : List Frame) : Stack := ⟨t.top, t.below ++ base⟩

@[simp] theorem atop_top : (t.atop base).top = t.top := rfl

@[simp] theorem atop_head : (t.atop base).head = t.head := rfl

/-- A region that is left belongs to the upper stack, unless the base gets shorter. -/
theorem leaveWhile_atop (h : base.length ≤ (leaveWhile p top (below ++ base)).depth) :
    leaveWhile p top (below ++ base) = (leaveWhile p top below).atop base := by
  induction below generalizing top with
  | nil =>
    cases base with
    | nil => rfl
    | cons outer rest =>
      rw [List.nil_append] at h ⊢
      by_cases hp : p top = true
      · have hle := depth_leaveWhile_le p outer rest
        simp only [leaveWhile, hp, if_true, List.length_cons] at h
        omega
      · simp [leaveWhile, hp, atop]
  | cons outer rest ih =>
    rw [List.cons_append] at h ⊢
    by_cases hp : p top = true
    · simp only [leaveWhile, hp, if_true] at h ⊢
      exact ih h
    · simp [leaveWhile, hp, atop]

theorem leave_atop (h : base.length ≤ (t.atop base).leave.depth) : (t.atop base).leave = t.leave.atop base := by
  obtain ⟨top, below⟩ := t
  cases below with
  | nil =>
    cases base with
    | nil => rfl
    | cons outer rest => exact absurd h (Nat.not_succ_le_self rest.length)
  | cons outer rest => rfl

theorem closeAt_atop {location : Location} (h : base.length ≤ ((t.atop base).closeAt location).depth) :
    (t.atop base).closeAt location = (t.closeAt location).atop base :=
  leaveWhile_atop h

theorem unwind_atop (h : base.length ≤ (t.atop base).unwind.depth) : (t.atop base).unwind = t.unwind.atop base :=
  leaveWhile_atop h

theorem leaveScript_atop (h : base.length ≤ (t.atop base).leaveScript.depth) :
    (t.atop base).leaveScript = t.leaveScript.atop base := by
  unfold leaveScript at h ⊢
  have hleft : leaveWhile (fun f => f.exit != .scriptExit) (t.atop base).top (t.atop base).below =
      (leaveWhile (fun f => f.exit != .scriptExit) t.top t.below).atop base :=
    leaveWhile_atop (Nat.le_trans h (depth_leave_le _))
  rw [hleft] at h ⊢
  exact leave_atop h

/-- An exception leaves as many regions as the unwinding for it does. -/
theorem depth_throwException (s : Stack) (exception : Label) :
    (s.throwException exception).depth = s.unwind.depth := by
  unfold throwException
  split <;> rfl

theorem throwException_atop {exception : Label} (h : base.length ≤ ((t.atop base).throwException exception).depth) :
    (t.atop base).throwException exception = (t.throwException exception).atop base := by
  rw [depth_throwException] at h
  unfold throwException
  rw [unwind_atop h, atop_top, atop_head]
  split <;> rfl

end Stack

/-! ### Operations above a base -/

namespace Control

variable {privileged : String → Bool} {k : Control} {base : List Frame}

/-- The control state with further frames below its stack. -/
def atop (k : Control) (base : List Frame) : Control := k.onStack (·.atop base)

theorem step_atop {step : Step} (h : base.length ≤ ((k.atop base).step privileged step).stack.depth) :
    (k.atop base).step privileged step = (k.step privileged step).atop base := by
  obtain ⟨t, scripts⟩ := k
  cases step with
  | enterScript url =>
    simp only [step, enterScript, atop, onStack]
    cases privileged url <;> rfl
  | exitScript =>
    cases scripts with
    | nil => rfl
    | cons url scripts => exact congrArg (Control.mk · scripts) (Stack.leaveScript_atop h)
  | loopHeader condition exit =>
    have hloop : (t.atop base).isLoopAt exit = t.isLoopAt exit := rfl
    simp only [step, loopHeader, atop, onStack, hloop]
    split <;> rfl
  | reach location => exact congrArg (Control.mk · scripts) (Stack.closeAt_atop h)
  | throwException exception => exact congrArg (Control.mk · scripts) (Stack.throwException_atop h)
  | _ => rfl

/-- The operations leave the base alone if it does not get shorter. -/
theorem perform_atop {op : Operation} (h : base.length ≤ ((k.atop base).perform privileged op).stack.depth) :
    (k.atop base).perform privileged op = (k.perform privileged op).atop base := by
  cases op with
  | hook step => exact step_atop h
  | pop => exact congrArg (Control.mk · k.scripts) (Stack.leave_atop h)
  | _ => rfl

end Control
end InfoFlow
