import InfoFlow.Proofs.Openers

/-! # Arrivals at a loop's header

The header of a loop takes the innermost region for its own if that region ends where the loop does and a loop is
open in the running function. The second is known by a mark that branches, protected blocks and scripts inside the
loop inherit. So where such a region ends at the exit of a loop inside it, already the first arrival at that loop's
header opens no region and joins its condition into the frame around. Every other arrival opens a region. -/

namespace InfoFlow

/-- A loop is open in the running function: its region was opened after that of the innermost call. -/
def Step.inLoop (openers : List Step) : Bool := (openers.takeWhile (!·.isCall)).any Step.isLoopHeader

theorem Step.foldr_loopMark (openers : List Step) : openers.foldr Step.loopMark false = Step.inLoop openers := by
  induction openers with
  | nil => rfl
  | cons step rest ih =>
    rw [List.foldr_cons, ih]
    cases step <;> rfl

/-- The innermost region is taken for the loop's if it ends there and a loop is open in the running function. -/
theorem Stack.Opened.isLoopAt_iff {functionHandler : Bool} {openers : List Step} {s : Stack}
    (h : s.Opened false functionHandler [] openers) {exit : Location} :
    s.isLoopAt exit = true ↔ openers.head?.bind Step.regionEnd? = some exit ∧ Step.inLoop openers = true := by
  rw [isLoopAt, h.marks.1, Step.foldr_loopMark, Bool.and_eq_true, beq_iff_eq]
  cases openers with
  | nil => simp [Step.inLoop]
  | cons step rest =>
    have hlocation := h.location_eq List.head?_cons
    rw [List.head?_cons, Option.bind_some, hlocation, Option.some_inj, and_comm]

namespace Context

/-- The region of a loop that ends at `exit` has been opened inside the frames of `s`. -/
structure OpensLoop (s t : Stack) (exit : Location) : Prop where
  depth : t.depth = s.depth + 1
  below : t.below = s.top :: s.below
  location : t.location = exit
  loopEdge : t.top.loopEdge = true

/-- What an arrival at a loop's header does to the regions, which were opened by `openers`. -/
structure LoopArrival (c : Context) (openers : List Step) (condition : Label) (exit : Location) : Prop where
  recorded : openers.length = c.stack.depth
  /-- No region is opened exactly if the innermost one ends at the loop's exit and a loop is open in the running
  function. -/
  joins_iff : (c.loopHeader condition exit).2.stack.depth = c.stack.depth ↔
    openers.head?.bind Step.regionEnd? = some exit ∧ Step.inLoop openers = true
  joined : (c.loopHeader condition exit).2.stack.depth = c.stack.depth →
    (c.loopHeader condition exit).2.stack = c.stack.join condition
  opened : (c.loopHeader condition exit).2.stack.depth ≠ c.stack.depth →
    OpensLoop c.stack (c.loopHeader condition exit).2.stack exit
  /-- The program tells whether a region was opened. -/
  answer : (c.loopHeader condition exit).1 = true ↔ (c.loopHeader condition exit).2.stack.depth ≠ c.stack.depth

variable {c : Context} {condition : Label} {exit : Location}

theorem stack_loopHeader_of_isLoopAt (h : c.stack.isLoopAt exit = true) :
    (c.loopHeader condition exit).2.stack = c.stack.join condition := by
  rw [loopHeader, if_pos h]
  rfl

theorem opensLoop_of_not_isLoopAt (h : c.stack.isLoopAt exit = false) :
    OpensLoop c.stack (c.loopHeader condition exit).2.stack exit := by
  rw [loopHeader, h]
  exact ⟨rfl, rfl, rfl, rfl⟩

theorem depth_loopHeader_iff :
    (c.loopHeader condition exit).2.stack.depth = c.stack.depth ↔ c.stack.isLoopAt exit = true := by
  cases h : c.stack.isLoopAt exit with
  | true =>
    rw [stack_loopHeader_of_isLoopAt h]
    exact ⟨fun _ => rfl, fun _ => rfl⟩
  | false =>
    rw [(opensLoop_of_not_isLoopAt h).depth]
    exact ⟨fun heq => absurd heq (Nat.succ_ne_self _), nofun⟩

theorem answer_loopHeader : (c.loopHeader condition exit).1 = !c.stack.isLoopAt exit := by
  unfold loopHeader
  cases c.stack.isLoopAt exit <;> rfl

theorem loopArrival_of_opened {openers : List Step} (h : c.stack.Opened false false [] openers) :
    c.LoopArrival openers condition exit where
  recorded := (h.depth_eq.trans (Nat.zero_add _)).symm
  joins_iff := depth_loopHeader_iff.trans h.isLoopAt_iff
  joined heq := stack_loopHeader_of_isLoopAt (depth_loopHeader_iff.mp heq)
  opened hne := opensLoop_of_not_isLoopAt (Bool.eq_false_iff.mpr fun hloop => hne (depth_loopHeader_iff.mpr hloop))
  answer := by rw [answer_loopHeader, Bool.not_eq_true', Ne, depth_loopHeader_iff, Bool.eq_false_iff]

/-- After every trace, what the header of a loop does is told by the hooks that have opened the open regions. -/
theorem loop_arrivals (config : Config) (trace : List Step) (condition : Label) (exit : Location) :
    LoopArrival ((ofConfig config).replay trace) ((ofConfig config).openers [] trace) condition exit := by
  have hstart : (ofConfig config).stack.Opened false false [] [] := .root rfl rfl
  exact loopArrival_of_opened (opened_replay hstart fun _ _ => Nat.zero_le _)

/-- A branch inside a loop ends where a loop inside it does. The first arrival at the header of the inner loop opens
no region, and the innermost frame stays that of the branch. -/
theorem first_arrival_opens_nothing :
    (ofConfig {}).openers [] [.loopHeader .bottom 30, .branch .bottom 20 none] =
        [.branch .bottom 20 none, .loopHeader .bottom 30] ∧
      (((ofConfig {}).replay [.loopHeader .bottom 30, .branch .bottom 20 none]).loopHeader .secret 20).2.stack.depth =
        ((ofConfig {}).replay [.loopHeader .bottom 30, .branch .bottom 20 none]).stack.depth := by
  decide

end Context
end InfoFlow
