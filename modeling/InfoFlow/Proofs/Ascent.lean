import Mathlib.Data.List.Chain
import InfoFlow.Proofs.StackMoves

/-! # Labels grow inward

A region has the label of the region around it and what its own entry adds, and a join only raises the
innermost one. A frame where the sources of the outer one may be missing is that of a script, which does not
inherit the policy source. So the program counter covers the label of every frame up to that of the script,
and a handler that an exception reaches gets the label that governed the throw. -/

namespace InfoFlow

/-- The frame is that of a script, or its label covers that of the frame around it. -/
def Frame.Within (inner outer : Frame) : Prop := inner.exit = .scriptExit ∨ inner.label.Covers outer.label

namespace Stack

theorem unwind_of_stops {top : Frame} {below : List Frame} (h : stopsUnwinding top = true) :
    unwind ⟨top, below⟩ = ⟨top, below⟩ := by
  cases below <;> simp [unwind, leaveWhile, h]

theorem unwind_of_passes {top outer : Frame} {rest : List Frame} (h : stopsUnwinding top = false) :
    unwind ⟨top, outer :: rest⟩ = unwind ⟨outer, rest⟩ := by
  simp [unwind, leaveWhile, h]

/-- Inside a script, labels grow from the outermost region to the innermost one. -/
def Ascending (s : Stack) : Prop := (s.top :: s.below).IsChain Frame.Within

namespace Ascending

variable {s : Stack} {t : Stack} {f : Frame}

theorem of_suffix (h : s.Ascending) (hs : t.top :: t.below <:+ s.top :: s.below) : t.Ascending :=
  List.IsChain.suffix h hs

theorem openFrame (h : s.Ascending) (hf : f.Within s.top) : Ascending ⟨f, s.top :: s.below⟩ :=
  List.isChain_cons_cons.mpr ⟨hf, h⟩

/-- The innermost frame may take in further sources. -/
theorem raise (h : s.Ascending) (hraised : s.top.RaisedTo t.top) (hbelow : t.below = s.below) : t.Ascending := by
  unfold Ascending
  rw [hbelow]
  obtain ⟨top, below⟩ := s
  cases below with
  | nil => exact List.IsChain.singleton _
  | cons outer rest =>
    obtain ⟨hwithin, hrest⟩ := List.isChain_cons_cons.mp h
    refine List.isChain_cons_cons.mpr ⟨?_, hrest⟩
    rcases hwithin with hscript | hcovers
    · exact Or.inl (hraised.exit.trans hscript)
    · exact Or.inr (hraised.label.trans hcovers)

/-- Every move keeps labels growing inward. -/
theorem moves (h : s.Ascending) {ordinary : Bool} (hmoves : s.Moves ordinary t) : t.Ascending := by
  cases hmoves with
  | opened hlabel hexit =>
    refine h.openFrame ?_
    cases ordinary with
    | true => exact Or.inl (hexit rfl)
    | false => exact Or.inr hlabel
  | left hleft hraised hbelow => exact (h.of_suffix hleft).raise hraised hbelow

theorem push (h : s.Ascending) (r : Region) : (s.push r).Ascending := h.moves (.push r)

theorem throwException (h : s.Ascending) (exception : Label) : (s.throwException exception).Ascending :=
  h.moves (Moves.throwException exception : s.Moves false _)

/-- The program counter covers the label of the frame at which an exception stops. -/
theorem covers_unwind (h : s.Ascending) : s.head.Covers s.unwind.head := by
  obtain ⟨top, below⟩ := s
  induction below generalizing top with
  | nil => exact Label.Covers.refl _
  | cons outer rest ih =>
    cases hstops : stopsUnwinding top with
    | true =>
      rw [unwind_of_stops hstops]
      exact Label.Covers.refl _
    | false =>
      rw [unwind_of_passes hstops]
      obtain ⟨hwithin, hrest⟩ := List.isChain_cons_cons.mp h
      have hscript : top.exit ≠ .scriptExit := by
        intro hscript
        simp [stopsUnwinding, hscript] at hstops
      exact (hwithin.resolve_left hscript).trans (ih outer hrest)

end Ascending

/-! ### Handlers -/

variable {s : Stack} {exception : Label}

/-- The innermost frame becomes a handler that runs under `label` and catches no second exception. -/
def startHandler (s : Stack) (label : Label) : Stack :=
  s.modifyTop fun f => { f with label, exceptionEdge := false }

theorem throwException_of_uncaught (h : s.unwind.top.exceptionEdge = false) :
    s.throwException exception = s.unwind := by
  rw [throwException, h]
  rfl

/-- A handler had no source that the program counter at the throw did not have. -/
theorem Ascending.throwException_of_caught (hs : s.Ascending)
    (h : s.unwind.top.exceptionEdge = true) :
    s.throwException exception = s.unwind.startHandler (s.head.join exception) := by
  have hcovers : (s.head.join exception).Covers s.unwind.top.label :=
    Label.covers_join_left.trans hs.covers_unwind
  rw [Stack.throwException, if_pos h]
  simp only [Stack.joinHandlers, Stack.join, startHandler, Stack.modifyTop, hcovers.join_eq]

end Stack

/-- The hooks keep labels growing inward. -/
theorem Control.ascending_step {privileged : String → Bool} {k : Control} (step : Step)
    (h : k.stack.Ascending) : (k.step privileged step).stack.Ascending :=
  h.moves (k.moves_perform privileged (.hook step))

end InfoFlow
