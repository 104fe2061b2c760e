/-!
# Open loops

The loops that a walk is inside of, innermost last. A loop is known by the id of its node: it is
open from the first visit of that node until its rounds are used up.
-/
namespace Flowgraph

structure Frame where
  loop : String
  rounds : Nat
  /-- The round that is being walked, counted from one. -/
  round : Nat
  body : String
  deriving DecidableEq, Repr

structure Loops where
  frames : List Frame := []
  deriving DecidableEq, Repr

namespace Loops
variable (s : Loops)

def depth : Nat := s.frames.length

def push (f : Frame) : Loops := ⟨s.frames ++ [f]⟩

def find? (id : String) : Option Frame := s.frames.find? (·.loop == id)

def remove (id : String) : Loops := ⟨s.frames.eraseP (·.loop == id)⟩

def setRound (id : String) (round : Nat) : Loops :=
  ⟨s.frames.modify (s.frames.findIdx (·.loop == id)) fun f => { f with round := round }⟩

end Loops
end Flowgraph
