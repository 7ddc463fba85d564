import MonitorCoverage.Lock.Event

/-!
# The lock state of a method

While its events are walked, a method holds a lock if it is synchronized or if it has entered more
monitors than it has left. The depth is a signed word that wraps around. One exit too many, such as
compilers write into handlers, is taken as no exit at all.
-/

namespace MonitorCoverage.Lock

structure LockState where
  inSynchronized : Bool
  depth : Int64
  deriving DecidableEq, Repr

/-- An exit below the outermost monitor, with the depth that it led to. -/
structure Underflow where
  depth : Int64
  deriving DecidableEq, Repr

def Underflow.message (underflow : Underflow) : Bytes :=
  utf8 ("monitor depth underflow: depth " ++ Decimal.text underflow.depth.toInt)

namespace LockState

def start (isSynchronized : Bool) : LockState := { inSynchronized := isSynchronized, depth := 0 }

def isHeld (state : LockState) : Bool := state.inSynchronized || 0 < state.depth

/-- Whether an event runs under a lock, and the state after it. -/
def step (state : LockState) (event : Event) : Except Underflow Bool × LockState :=
  if state.inSynchronized then (.ok true, state)
  else if event.kind = .monitorEnter then (.ok true, { state with depth := state.depth + 1 })
  else if event.kind = .monitorExit then
    let depth := state.depth - 1
    if depth = -1 then (.ok false, { state with depth := 0 })
    else if depth < -1 then (.error ⟨depth⟩, { state with depth })
    else (.ok true, { state with depth })
  else (.ok state.isHeld, state)

end LockState

end MonitorCoverage.Lock
