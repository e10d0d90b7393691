import Marshal.Error.Registry
import Marshal.File.Tree
import Marshal.Host.Access
import Marshal.Host.Arrays
import Marshal.Host.Collections
import Marshal.Host.Links
import Marshal.Settings

/-!
# `Session.Basic` — the state of a process and the actions on it

A session holds what outlives a single call: the table of error kinds, the host with all that it
owns, the files, the symbol for failure parameters and the last error. While the host's callback
table is not installed the session is detached: questions to the host have fixed answers, and
requests do nothing.

Reading is a function of the session. Whatever changes it is an action, `Act`, which ends in a value
or in a raised error; an error does not undo what the action has done before it.

## Contents

* `Session` — the state;
* `ask` — questions to the host;
* `Act`, `request`, `fail`, `read` — actions.
-/

namespace Marshal

/-- The state of a process. -/
structure Session where
  registry : Registry := .seeded
  host : Host := {}
  attached : Bool := true
  files : File.Tree := {}
  symbol : String := ({} : Settings).symbol
  lastError : Option Raised := none

namespace Session

instance : Inhabited Session := ⟨{}⟩

/-- The host's answer to a question, or the answer that stands in for it while there is no table. -/
def ask {α : Type} (s : Session) (detached : α) (question : Host → α) : α :=
  if s.attached then question s.host else detached

/-- Let the host act. Without a table nothing happens and the result is the one that stands in. -/
def request {α : Type} (s : Session) (detached : α) (action : Host → α × Host) : α × Session :=
  if s.attached then
    let (a, host) := action s.host
    (a, { s with host })
  else (detached, s)

/-- With a table the host acts. -/
theorem request_of_attached {α : Type} {s : Session} (h : s.attached = true) (detached : α)
    (action : Host → α × Host) :
    s.request detached action = ((action s.host).1, { s with host := (action s.host).2 }) := by
  rw [request, if_pos h]

/-- A detached session has the answers that stand in. -/
theorem ask_of_detached {α : Type} {s : Session} (h : s.attached = false) (detached : α)
    (question : Host → α) : s.ask detached question = detached := by simp [ask, h]

/-- A detached session cannot make the host act. -/
theorem request_of_detached {α : Type} {s : Session} (h : s.attached = false) (detached : α)
    (action : Host → α × Host) : s.request detached action = (detached, s) := by simp [request, h]

end Session

/-! ## Actions -/

/-- Something that changes the session and ends in a value or a raised error. -/
abbrev Act (α : Type) := EStateM Raised Session α

namespace Act

/-- Raise the error of a cause. -/
def fail {α : Type} (fault : Fault) : Act α := fun s => .error (s.registry.errorOf fault) s

/-- Go on with a value, or raise the error of the cause that kept it away. -/
def ofExcept {α : Type} : Except Fault α → Act α
  | .ok a => pure a
  | .error fault => fail fault

/-- Read something that may fail. -/
def read {α : Type} (f : Session → Except Fault α) : Act α := fun s => ofExcept (f s) s

/-- Read something that cannot fail. -/
def ask {α : Type} (f : Session → α) : Act α := fun s => .ok (f s) s

/-- Let the host act. -/
def request {α : Type} (detached : α) (action : Host → α × Host) : Act α := fun s =>
  let (a, s) := s.request detached action
  .ok a s

/-- Let the host act without a result. -/
def order (action : Host → Host) : Act Unit := request () fun w => ((), action w)

/-- Reading changes nothing. -/
theorem read_eq {α : Type} (f : Session → Except Fault α) (s : Session) :
    read f s = match f s with
      | .ok a => .ok a s
      | .error fault => .error (s.registry.errorOf fault) s := by
  unfold read
  cases f s <;> rfl

end Act

end Marshal
