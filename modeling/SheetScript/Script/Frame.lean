import Std.Data.ExtTreeMap

/-!
# Call frames

A frame holds the variables of one procedure call and its latest result. Frames form a stack, with
the global frame at the bottom, which is never taken away. Only the innermost frame is visible: a
procedure sees neither the variables of its caller nor the global ones.
-/

namespace SheetScript.Script

/-- The variables of one call, and the result of its latest command. -/
structure Frame where
  bindings : Std.ExtTreeMap String String := ∅
  result : String := ""

namespace Frame

/-- The value of a variable. -/
def get? (frame : Frame) (name : String) : Option String := frame.bindings[name]?

/-- The frame with a variable set. -/
def set (frame : Frame) (name value : String) : Frame :=
  { frame with bindings := frame.bindings.insert name value }

/-- The frame without a variable. -/
def unset (frame : Frame) (name : String) : Frame :=
  { frame with bindings := frame.bindings.erase name }

end Frame

/-- A stack of frames that is never empty. -/
structure FrameStack where
  /-- The innermost frame. -/
  current : Frame := {}
  /-- The frames below it, the innermost first; the last one is the global frame. -/
  below : List Frame := []

namespace FrameStack

/-- How many frames there are. -/
def depth (frames : FrameStack) : Nat := frames.below.length + 1

/-- Puts a frame on top. -/
def push (frames : FrameStack) (frame : Frame) : FrameStack :=
  ⟨frame, frames.current :: frames.below⟩

/-- Takes the innermost frame off, unless it is the global one. -/
def pop? (frames : FrameStack) : Option (Frame × FrameStack) :=
  match frames.below with
  | [] => none
  | frame :: below => some (frames.current, ⟨frame, below⟩)

/-- The stack without its innermost frame; the global frame stays. -/
def pop (frames : FrameStack) : FrameStack :=
  match frames.pop? with
  | some (_, frames) => frames
  | none => frames

/-- Changes the innermost frame. -/
def modifyCurrent (frames : FrameStack) (f : Frame → Frame) : FrameStack :=
  { frames with current := f frames.current }

@[simp] theorem pop_push (frames : FrameStack) (frame : Frame) : (frames.push frame).pop = frames :=
  rfl

@[simp] theorem depth_push (frames : FrameStack) (frame : Frame) :
    (frames.push frame).depth = frames.depth + 1 := rfl

@[simp] theorem depth_modifyCurrent (frames : FrameStack) (f : Frame → Frame) :
    (frames.modifyCurrent f).depth = frames.depth := rfl

end FrameStack

end SheetScript.Script
