import InfoFlow.Proofs.StackDiscipline

/-! # What operations do to the stack

Every operation either opens one region or leaves regions from the inside out, and then it may add to the label of
the frame where that ends. A region that is opened inherits the label of the frame around, without the policy source
if it is that of an ordinary script. What such moves keep is kept by all operations. -/

namespace InfoFlow

/-- What a region inherits of the label of the frame around, given whether it is that of an ordinary script. -/
def Label.inherited (ordinary : Bool) (l : Label) : Label := if ordinary then l.without policy else l

theorem Label.Has.inherited {l : Label} {source : Nat} (h : l.Has source) (hs : source ≠ policySource)
    (ordinary : Bool) : (l.inherited ordinary).Has source := by
  cases ordinary with
  | true => exact has_without.mpr ⟨h, fun hpolicy => hs (has_policy.mp hpolicy)⟩
  | false => exact h

/-- The operation starts a script whose origin is not privileged. -/
def Operation.startsOrdinary (privileged : String → Bool) : Operation → Bool
  | .hook (.enterScript url) => !privileged url
  | _ => false

namespace Stack

variable {ordinary : Bool} {s t u : Stack}

/-- The second stack is what an operation makes of the first one, given whether the operation starts an ordinary
script. -/
inductive Moves (ordinary : Bool) (s : Stack) : Stack → Prop where
  | opened {f : Frame} : f.label.Covers (s.head.inherited ordinary) → (ordinary = true → f.exit = .scriptExit) →
      Moves ordinary s ⟨f, s.top :: s.below⟩
  | left {t u : Stack} : t.top :: t.below <:+ s.top :: s.below → t.top.RaisedTo u.top → u.below = t.below →
      Moves ordinary s u

namespace Moves

theorem leave (h : t.top :: t.below <:+ s.top :: s.below) : s.Moves ordinary t := .left h (.refl _) rfl

theorem raise (h : s.top.RaisedTo u.top) (hbelow : u.below = s.below) : s.Moves ordinary u :=
  .left List.suffix_rfl h hbelow

theorem refl (s : Stack) : s.Moves ordinary s := leave List.suffix_rfl

theorem push (r : Region) : s.Moves false (s.push r) := .opened Label.covers_join_left nofun

theorem throwException (exception : Label) : s.Moves ordinary (s.throwException exception) := by
  have hleft : s.unwind.top :: s.unwind.below <:+ s.top :: s.below := leaveWhile_suffix _ s.top s.below
  unfold Stack.throwException
  split
  · exact .left hleft ⟨Label.covers_join_left, rfl, rfl⟩ rfl
  · exact leave hleft

end Moves
end Stack

open Stack (Moves)

/-- Every operation opens one region, or leaves some and may raise the innermost frame. -/
theorem Control.moves_perform (privileged : String → Bool) (k : Control) (op : Operation) :
    k.stack.Moves (op.startsOrdinary privileged) (k.perform privileged op).stack := by
  cases op with
  | hook step =>
    cases step with
    | enterScript url =>
      simp only [perform, step, enterScript, Operation.startsOrdinary]
      cases privileged url with
      | true => exact .push _
      | false => exact .opened Label.covers_join_left fun _ => rfl
    | exitScript =>
      obtain ⟨s, scripts⟩ := k
      cases scripts with
      | nil => exact .refl s
      | cons url scripts => exact .leave s.leaveScript_suffix
    | branch | call | exceptionRegion => exact .push _
    | loopHeader condition exit =>
      simp only [perform, step, loopHeader]
      split
      · exact .raise ⟨Label.covers_join_left, rfl, rfl⟩ rfl
      · exact .push _
    | reach location => exact .leave (Stack.leaveWhile_suffix _ k.stack.top k.stack.below)
    | throwException exception => exact .throwException exception
    | join label => exact .raise ⟨Label.covers_join_left, rfl, rfl⟩ rfl
    | returnValue | write => exact .refl _
  | push region => exact .push region
  | pop => exact .leave k.stack.leave_suffix
  | joinHandlers | joinBranch => exact .raise ⟨Label.covers_join_left, rfl, rfl⟩ rfl
  | setLoop => exact .raise ⟨.refl _, rfl, rfl⟩ rfl
  | _ => exact .refl _

end InfoFlow
