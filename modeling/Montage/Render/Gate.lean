/-!
# The render gate

At most one render runs at a time. A render that finds the gate taken is turned away; it does not
wait.
-/

namespace Montage

/-- Whether a render holds the gate. -/
structure RenderGate where
  busy : Bool := false
  deriving DecidableEq, Repr

namespace RenderGate

/-- Try to take the gate. -/
def acquire (gate : RenderGate) : Bool × RenderGate :=
  if gate.busy then (false, gate) else (true, { busy := true })

/-- Leave the gate free. -/
def release (_gate : RenderGate) : RenderGate :=
  { busy := false }

end RenderGate

end Montage
