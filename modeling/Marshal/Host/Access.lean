import Marshal.Host.Basic

/-!
# `Host.Access` — what the host allows

The host says which paths may be touched, and whether the user has asked to stop.
-/

namespace Marshal.Host

open Marshal.Text

/-- Refuse every path that begins with `start`. -/
def deny (w : Host) (start : String) : Host := { w with denied := w.denied ++ [start] }

/-- Allow every path again. -/
def allowAll (w : Host) : Host := { w with denied := [] }

/-- Whether a path may be touched. No path at all may not. -/
def allows (w : Host) (path : Option Bytes) : Bool :=
  match path with
  | none => false
  | some path =>
    let path := (lossyString path).toList
    !w.denied.any fun start => start.toList.isPrefixOf path

/-- Ask for a stop, or take the request back. -/
def requestAbort (w : Host) (requested : Bool) : Host := { w with abortRequested := requested }

end Marshal.Host
