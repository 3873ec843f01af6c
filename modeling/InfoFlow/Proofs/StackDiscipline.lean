import InfoFlow.Proofs.Locality
import InfoFlow.Proofs.Sources

/-! # Stack discipline

An operation on the stack opens a region, leaves regions from the inside out, or changes the innermost frame
in place. How many regions it leaves depends on the frames, so what a run of operations can have touched is
told by the least depth on its way: the frames below that depth are those from before the run, and the frame at
it is the one from before with further sources at most. A run that comes back to where it started without
joining anything into the region around brings back the program counter. -/

namespace InfoFlow

/-- The frame `g` is the frame `f` later on: it may have taken in further sources and got other marks. -/
structure Frame.RaisedTo (f g : Frame) : Prop where
  label : g.label.Covers f.label
  exit : g.exit = f.exit
  guardRegister : g.guardRegister = f.guardRegister

theorem Frame.RaisedTo.refl (f : Frame) : f.RaisedTo f := ⟨.refl _, rfl, rfl⟩

theorem Frame.RaisedTo.trans {f g h : Frame} (hfg : f.RaisedTo g) (hgh : g.RaisedTo h) : f.RaisedTo h where
  label := hgh.label.trans hfg.label
  exit := hgh.exit.trans hfg.exit
  guardRegister := hgh.guardRegister.trans hfg.guardRegister

namespace Stack

/-- An operation on a stack that stands alone. -/
inductive Edit where
  | push (region : Region)
  | pushWithout (region : Region) (revoked : Label)
  | pop
  | closeAt (location : Location)
  | unwind
  | join (label : Label)
  | joinHandlers (label : Label) (functionHandler exceptionEdge : Bool)
  | joinBranch (label : Label) (branchEdge : Bool)
  | setLoop (loopEdge : Bool)
deriving DecidableEq

/-- The edit takes a label into the innermost frame. -/
def Edit.isJoin : Edit → Bool
  | .join _ | .joinHandlers _ _ _ | .joinBranch _ _ => true
  | _ => false

/-- The edit changes the innermost frame and neither opens nor leaves a region. -/
def Edit.isInPlace : Edit → Bool
  | .setLoop _ => true
  | e => e.isJoin

def edit (s : Stack) : Edit → Stack
  | .push region => s.push region
  | .pushWithout region revoked => s.pushWithout region revoked
  | .pop => s.leave
  | .closeAt location => s.closeAt location
  | .unwind => s.unwind
  | .join label => s.join label
  | .joinHandlers label functionHandler exceptionEdge => s.joinHandlers label functionHandler exceptionEdge
  | .joinBranch label branchEdge => s.joinBranch label branchEdge
  | .setLoop loopEdge => s.setLoop loopEdge

def editAll (s : Stack) (edits : List Edit) : Stack := edits.foldl edit s

/-- The least depth on the way through edits, the depths at the start and at the end included. -/
def leastDepth (s : Stack) : List Edit → Nat
  | [] => s.depth
  | e :: rest => min s.depth ((s.edit e).leastDepth rest)

/-- The edits among the given ones that meet the stack at a certain depth. -/
def appliedAt (s : Stack) (depth : Nat) : List Edit → List Edit
  | [] => []
  | e :: rest => (if s.depth = depth then [e] else []) ++ (s.edit e).appliedAt depth rest

variable {s t u : Stack} {m : Nat}

/-! ### What an edit keeps -/

/-- An edit leaves regions, opens one, or changes the innermost frame and nothing else. -/
theorem edit_cases (s : Stack) (e : Edit) :
    (s.edit e).frames <+: s.frames ∨ s.frames <+: (s.edit e).frames ∨
      (e.isInPlace = true ∧ (s.edit e).below = s.below) := by
  cases e with
  | push | pushWithout => exact Or.inr (Or.inl (frames_prefix_of_suffix (List.suffix_cons _ _)))
  | pop => exact Or.inl (frames_prefix_of_suffix (leave_suffix s))
  | closeAt | unwind => exact Or.inl (frames_prefix_of_suffix (leaveWhile_suffix _ s.top s.below))
  | join | joinHandlers | joinBranch | setLoop => exact Or.inr (Or.inr ⟨rfl, rfl⟩)

theorem leastDepth_le_depth {edits : List Edit} : s.leastDepth edits ≤ s.depth := by
  cases edits with
  | nil => exact Nat.le_refl _
  | cons e rest => exact Nat.min_le_left _ _

/-- The two stacks have the same frames below depth `m`, and their frames at that depth are related. -/
structure Keeps (R : Frame → Frame → Prop) (m : Nat) (s t : Stack) : Prop where
  below : t.frames.take m = s.frames.take m
  frame : ∃ f g, s.frames[m]? = some f ∧ t.frames[m]? = some g ∧ R f g

namespace Keeps

variable {R : Frame → Frame → Prop}

/-- Outermost frames that one stack has in front of further ones are the same in both. -/
theorem of_frames (hR : ∀ f, R f f) (h : s.frames <+: t.frames) (hm : m ≤ s.depth) :
    Keeps R m s t ∧ Keeps R m t s := by
  obtain ⟨inner, hinner⟩ := h
  have hlt : m < s.frames.length := by
    rw [length_frames]
    exact Nat.lt_succ_of_le hm
  have htake : t.frames.take m = s.frames.take m := by
    rw [← hinner, List.take_append_of_le_length (Nat.le_of_lt hlt)]
  have hs : s.frames[m]? = some s.frames[m] := List.getElem?_eq_getElem hlt
  have ht : t.frames[m]? = some s.frames[m] := by
    rw [← hinner, List.getElem?_append_left hlt, hs]
  exact ⟨⟨htake, _, _, hs, ht, hR _⟩, ⟨htake.symm, _, _, ht, hs, hR _⟩⟩

theorem refl (hR : ∀ f, R f f) (hm : m ≤ s.depth) : Keeps R m s s := (of_frames hR List.prefix_rfl hm).1

theorem trans (hR : ∀ f g h, R f g → R g h → R f h) (hst : Keeps R m s t) (htu : Keeps R m t u) :
    Keeps R m s u := by
  obtain ⟨f, g, hf, hg, hfg⟩ := hst.frame
  obtain ⟨g', h, hg', hh, hgh⟩ := htu.frame
  obtain rfl : g = g' := Option.some.inj (hg.symm.trans hg')
  exact ⟨htu.below.trans hst.below, f, h, hf, hh, hR f g h hfg hgh⟩

/-- A change of the innermost frame touches no other one. -/
theorem of_below_eq (hR : ∀ f, R f f) (h : t.below = s.below) (hm : m ≤ s.depth)
    (htop : s.depth = m → R s.top t.top) : Keeps R m s t := by
  have hlength : m ≤ s.below.reverse.length := by
    rw [List.length_reverse]
    exact hm
  have htake : t.frames.take m = s.frames.take m := by
    rw [frames_eq, frames_eq, h, List.take_append_of_le_length hlength, List.take_append_of_le_length hlength]
  rcases Nat.lt_or_eq_of_le hm with hlt | rfl
  · have hlt' : m < s.below.reverse.length := by
      rw [List.length_reverse]
      exact hlt
    have hframe : t.frames[m]? = s.frames[m]? := by
      rw [frames_eq, frames_eq, h, List.getElem?_append_left hlt', List.getElem?_append_left hlt']
    obtain ⟨-, f, g, hf, hg, hfg⟩ := refl (R := R) hR hm
    exact ⟨htake, f, g, hf, hframe.trans hg, hfg⟩
  · have hdepth : t.depth = s.depth := congrArg List.length h
    exact ⟨htake, s.top, t.top, getElem?_frames_depth s, hdepth ▸ getElem?_frames_depth t, htop rfl⟩

theorem edit (hR : ∀ f, R f f) (e : Edit) (hs : m ≤ s.depth) (ht : m ≤ (s.edit e).depth)
    (htop : s.depth = m → e.isInPlace = true → R s.top (s.edit e).top) : Keeps R m s (s.edit e) := by
  rcases edit_cases s e with hleft | hopened | ⟨hplace, hbelow⟩
  · exact (of_frames hR hleft ht).2
  · exact (of_frames hR hopened hs).1
  · exact of_below_eq hR hbelow hs fun hdepth => htop hdepth hplace

/-- As long as the stack does not get lower than `m`, the frames below that depth stay, and what happens to the
frame at that depth is what the edits that meet it innermost do in place. -/
theorem editAll (hR : ∀ f, R f f) (htrans : ∀ f g h, R f g → R g h → R f h) {edits : List Edit}
    (hm : m ≤ s.leastDepth edits)
    (htop : ∀ e ∈ s.appliedAt m edits, ∀ t : Stack, e.isInPlace = true → R t.top (t.edit e).top) :
    Keeps R m s (s.editAll edits) := by
  induction edits generalizing s with
  | nil => exact refl hR hm
  | cons e rest ih =>
    obtain ⟨hs, hrest⟩ := Nat.le_min.mp hm
    have hnext : m ≤ (s.edit e).depth := Nat.le_trans hrest leastDepth_le_depth
    refine trans htrans (edit hR e hs hnext fun hdepth hplace => ?_) (ih hrest fun e' he' => ?_)
    · exact htop e (List.mem_append_left _ (by rw [if_pos hdepth]; exact List.mem_singleton_self e)) s hplace
    · exact htop e' (List.mem_append_right _ he')

/-- The innermost frames of stacks of that depth are related. -/
theorem top (h : Keeps R s.depth s t) (hdepth : t.depth = s.depth) : R s.top t.top := by
  obtain ⟨f, g, hf, hg, hfg⟩ := h.frame
  obtain rfl : s.top = f := Option.some.inj ((getElem?_frames_depth s).symm.trans hf)
  obtain rfl : t.top = g := Option.some.inj ((getElem?_frames_depth t).symm.trans (hdepth ▸ hg))
  exact hfg

theorem below_eq (h : Keeps R s.depth s t) (hdepth : t.depth = s.depth) : t.below = s.below := by
  have htake := h.below
  rwa [take_frames_depth, ← hdepth, take_frames_depth, List.reverse_inj] at htake

end Keeps

/-! ### Runs of edits -/

theorem raisedTo_edit {e : Edit} (s : Stack) (h : e.isInPlace = true) : s.top.RaisedTo (s.edit e).top := by
  cases e with
  | join | joinHandlers | joinBranch => exact ⟨Label.covers_join_left, rfl, rfl⟩
  | setLoop => exact ⟨.refl _, rfl, rfl⟩
  | _ => cases h

theorem label_edit {e : Edit} (s : Stack) (h : e.isInPlace = true) (hjoin : e.isJoin = false) :
    (s.edit e).top.label = s.top.label := by
  cases e with
  | setLoop => rfl
  | join | joinHandlers | joinBranch => cases hjoin
  | _ => cases h

/-- What a run of edits leaves as it was. -/
structure Disciplined (s : Stack) (edits : List Edit) : Prop where
  /-- Nothing changes below the least depth. -/
  below : (s.editAll edits).frames.take (s.leastDepth edits) = s.frames.take (s.leastDepth edits)
  /-- The frame at the least depth is there from the start to the end. -/
  frame : ∃ f g, s.frames[s.leastDepth edits]? = some f ∧
    (s.editAll edits).frames[s.leastDepth edits]? = some g ∧ f.RaisedTo g
  /-- Regions that are opened and left again, with no join into the region around, leave the program counter. -/
  head : s.leastDepth edits = s.depth → (s.editAll edits).depth = s.depth →
    (∀ e ∈ s.appliedAt s.depth edits, e.isJoin = false) → (s.editAll edits).head = s.head
  /-- If nothing at all is changed in place there, they leave the whole stack. -/
  stack : s.leastDepth edits = s.depth → (s.editAll edits).depth = s.depth →
    (∀ e ∈ s.appliedAt s.depth edits, e.isInPlace = false) → s.editAll edits = s

/-- Every run of edits from every stack keeps the stack discipline. -/
theorem disciplined (s : Stack) (edits : List Edit) : Disciplined s edits := by
  have hraised : Keeps Frame.RaisedTo (s.leastDepth edits) s (s.editAll edits) :=
    Keeps.editAll .refl (fun _ _ _ => .trans) (Nat.le_refl _) fun _ _ t => raisedTo_edit t
  refine ⟨hraised.below, hraised.frame, fun hleast hdepth hjoins => ?_, fun hleast hdepth hplaces => ?_⟩
  · have hlabel : Keeps (fun f g => g.label = f.label) s.depth s (s.editAll edits) := by
      refine Keeps.editAll (R := fun f g => g.label = f.label) (fun _ => rfl) (fun _ _ _ h h' => h'.trans h)
        (Nat.le_of_eq hleast.symm) fun e he t hplace => ?_
      exact label_edit t hplace (hjoins e he)
    exact hlabel.top hdepth
  · have hsame : Keeps Eq s.depth s (s.editAll edits) := by
      refine Keeps.editAll (fun _ => rfl) (fun _ _ _ => Eq.trans) (Nat.le_of_eq hleast.symm) fun e he _ hplace => ?_
      exact absurd hplace (Bool.eq_false_iff.mp (hplaces e he))
    exact congr (congrArg Stack.mk (hsame.top hdepth).symm) (hsame.below_eq hdepth)

/-- Two regions with a common end take in labels and are left together; the outermost frame meets no edit but
the first. -/
example :
    (Stack.initial.appliedAt 0
        [.push (.plain .secret 9), .join .policy, .pushWithout (.plain .bottom 9) .policy, .setLoop true,
          .closeAt 9]) = [.push (.plain .secret 9)] ∧
      (Stack.initial.editAll
        [.push (.plain .secret 9), .join .policy, .pushWithout (.plain .bottom 9) .policy, .setLoop true,
          .closeAt 9]) = .initial := by decide

end Stack
end InfoFlow
