import InfoFlow.Label

/-! # Control-flow regions

A region of a program is entered at a branch, a call, a loop header or a protected block, and it is
left where all paths through it meet again. A frame is a region that is open now. -/

namespace InfoFlow

/-- An address in the running code. -/
abbrev Location := Int64

namespace Location

/-- Where the outermost frame ends: no instruction has this address. -/
def sentinel : Location := -1

/-- Where a script's own frame ends: past its last instruction. -/
def scriptExit : Location := Int64.maxValue

end Location

/-- The register that holds the condition of a branch. -/
structure Register where
  index : UInt32
deriving DecidableEq

structure Frame where
  /-- The join of everything that influenced that control is inside the region. -/
  label : Label
  /-- Where all paths through the region meet again. -/
  exit : Location
  guardRegister : Option Register
  /-- The enclosing function has an exception handler. -/
  functionHandler : Bool
  /-- An exception thrown inside is caught at this frame. -/
  exceptionEdge : Bool
  branchEdge : Bool
  loopEdge : Bool
deriving DecidableEq

def Frame.sentinel : Frame := ⟨.bottom, .sentinel, none, false, false, false, false⟩

/-- What is known of a region when it is entered. -/
structure Region where
  label : Label
  exit : Location
  guardRegister : Option Register := none
  functionHandler : Bool := false
  exceptionEdge : Bool := false
  branchEdge : Bool := false
  /-- No value stands for the loop flag of the frame around. -/
  loopEdge : Option Bool := none
deriving DecidableEq

namespace Region

def plain (label : Label) (exit : Location) : Region := { label, exit }

def branch (condition : Label) (exit : Location) (guardRegister : Option Register) : Region :=
  { label := condition, exit, guardRegister, branchEdge := true }

/-- The frame that a region becomes inside `outer`, given the part of `outer`'s label it inherits. -/
def frame (r : Region) (outer : Frame) (inherited : Label) : Frame :=
  { label := inherited.join r.label
    exit := r.exit
    guardRegister := r.guardRegister
    functionHandler := r.functionHandler
    exceptionEdge := r.exceptionEdge
    branchEdge := r.branchEdge
    loopEdge := r.loopEdge.getD outer.loopEdge }

end Region

/-! ### The stack of open regions

The innermost open region is the head of the stack, and the head's label is the program-counter
label: the join of everything that influenced which instruction runs now. The outermost frame is a
sentinel that no operation removes, so a stack is never empty by its shape. -/

/-- The open regions: the innermost one, and those around it from the inside out. -/
structure Stack where
  top : Frame
  below : List Frame
deriving DecidableEq

namespace Stack

def initial : Stack := ⟨.sentinel, []⟩

/-- How many regions are open; the outermost frame does not count. -/
def depth (s : Stack) : Nat := s.below.length

def frames (s : Stack) : List Frame := (s.top :: s.below).reverse

/-- The stack with the given frames, the outermost first; it needs at least one. -/
def ofFrames? (frames : List Frame) : Option Stack :=
  match frames.reverse with
  | [] => none
  | top :: below => some ⟨top, below⟩

def head (s : Stack) : Label := s.top.label

def location (s : Stack) : Location := s.top.exit

/-- Opens a region: everything that influenced the head influences it too. -/
def push (s : Stack) (r : Region) : Stack := ⟨r.frame s.top s.head, s.top :: s.below⟩

/-- Opens a region that does not inherit the sources of `revoked` from the head. -/
def pushWithout (s : Stack) (r : Region) (revoked : Label) : Stack :=
  ⟨r.frame s.top (s.head.without revoked), s.top :: s.below⟩

def pop? (s : Stack) : Option (Frame × Stack) :=
  match s.below with
  | [] => none
  | outer :: rest => some (s.top, ⟨outer, rest⟩)

def leave (s : Stack) : Stack := s.pop?.elim s (·.2)

/-- Leaves frames from the inside out for as long as they satisfy `p`. The outermost frame stays. -/
def leaveWhile (p : Frame → Bool) : Frame → List Frame → Stack
  | top, [] => ⟨top, []⟩
  | top, outer :: rest => if p top then leaveWhile p outer rest else ⟨top, outer :: rest⟩

/-- How many frames are left that way. -/
def leaveCount (p : Frame → Bool) (s : Stack) : Nat := ((s.top :: s.below).dropLast.takeWhile p).length

/-- Leaves, from the inside out, the regions that end at `location`. -/
def closeAt (s : Stack) (location : Location) : Stack :=
  leaveWhile (fun f => f.exit == location) s.top s.below

def closeCount (s : Stack) (location : Location) : Nat := s.leaveCount fun f => f.exit == location

/-- An exception stops at a frame that catches it, or at the frame of the running script. -/
def stopsUnwinding (f : Frame) : Bool := f.exceptionEdge || f.exit == .scriptExit

/-- Leaves the regions inside the nearest frame that stops an exception. Without such a frame only
the outermost one stays. -/
def unwind (s : Stack) : Stack := leaveWhile (fun f => !stopsUnwinding f) s.top s.below

/-- How many regions an exception leaves: those inside the nearest frame that stops it, or else all inside the
outermost one. -/
def unwindCount (s : Stack) : Nat := s.leaveCount fun f => !stopsUnwinding f

/-- Leaves the innermost script's frame and every region inside it. -/
def leaveScript (s : Stack) : Stack :=
  (leaveWhile (fun f => f.exit != .scriptExit) s.top s.below).leave

def modifyTop (s : Stack) (f : Frame → Frame) : Stack := { s with top := f s.top }

def join (s : Stack) (label : Label) : Stack := s.modifyTop fun f => { f with label := f.label.join label }

def joinHandlers (s : Stack) (label : Label) (functionHandler exceptionEdge : Bool) : Stack :=
  (s.join label).modifyTop fun f => { f with functionHandler, exceptionEdge }

def joinBranch (s : Stack) (label : Label) (branchEdge : Bool) : Stack :=
  (s.join label).modifyTop fun f => { f with branchEdge }

def setLoop (s : Stack) (loopEdge : Bool) : Stack := s.modifyTop fun f => { f with loopEdge }

def isLoopAt (s : Stack) (location : Location) : Bool := s.top.loopEdge && s.location == location

end Stack
end InfoFlow
