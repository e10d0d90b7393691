import Marshal.Proofs.Session.LastError

/-!
# `Proofs.Session.Status` — what a status of zero says

The host takes a status of zero for success. A call that returns has that status and one that breaks down
has another, but the status of an error is the number of its kind, and the numbers go down through zero:
there is a kind with the number zero, the one that stands for no error. The library never fails with it. It
can be asked for like any other kind, though, by its name and by its number, and a call that fails with it
looks like one that has succeeded. No other kind has the number, whatever is registered, and a look-up that
finds nothing gives an error of a kind of its own.

## Contents

* `Fault.builtin_ne_noError` — the library's own failures;
* `ErrorKey`, `Registry.errorFor` — errors asked for by name or number;
* `Registry.Grown.id_eq_zero_iff` — the kind with the number zero;
* `status_zero_iff`, `failure_with_status_zero` — statuses of zero.
-/

namespace Marshal

open Marshal.Text

/-! ## The kind that stands for no error -/

theorem Builtin.name_eq_noError_iff (b : Builtin) : b.name = "NoError" ↔ b = .noError := by
  cases b <;> decide

/-- The library's own failures are of other kinds. -/
theorem Fault.builtin_ne_noError (fault : Fault) : fault.builtin ≠ .noError := by
  cases fault with
  | containerArgument kind cause => cases kind <;> exact nofun
  | emptyArray family => cases family <;> exact nofun
  | noArrayData family => cases family <;> exact nofun
  | arrayCreation type dims => cases type <;> exact nofun
  | arrayCopy family => cases family <;> exact nofun
  | elementCount family given present => cases family <;> exact nofun
  | position family fault position dims => cases fault <;> cases family <;> exact nofun
  | _ => exact nofun

/-- What an error is asked for by: the name of its kind or the number. -/
inductive ErrorKey
  | name (name : String)
  | number (id : Int)
  deriving DecidableEq, Repr

namespace Registry

/-- The error that is asked for, or the one that a failed look-up gives. -/
def errorFor (r : Registry) : ErrorKey → Raised
  | .name name => r.errorOfName name
  | .number id => r.errorOfId id

namespace Grown

variable {r : Registry}

/-- Where the kind that stands for no error is in the table. -/
theorem kinds_seven (h : r.Grown) : r.kinds[7]? = some ⟨0, "NoError", "No errors occurred."⟩ := by
  obtain ⟨more, hkinds⟩ := h.kinds_prefix
  have hseeded : seeded.kinds[7]? = some ⟨0, "NoError", "No errors occurred."⟩ := by decide +kernel
  have hlt : 7 < seeded.kinds.length := (List.getElem?_eq_some_iff.mp hseeded).1
  rw [← hkinds, List.getElem?_append_left hlt, hseeded]

/-- **The kind with the number zero** is the one that stands for no error, and no other. -/
theorem id_eq_zero_iff (h : r.Grown) {kind : ErrorKind} (hkind : kind ∈ r.kinds) :
    kind.id = 0 ↔ kind.name = "NoError" := by
  have hseven := h.kinds_seven
  constructor
  · intro hid
    obtain ⟨place, -, hplace, hnumber⟩ := h.inStep.mem_iff.mp hkind
    have hbase : baseId = 7 := rfl
    obtain rfl : place = 7 := by omega
    obtain rfl := Option.some.inj (hplace.symm.trans hseven)
    rfl
  · intro hname
    obtain rfl := h.inStep.name_unique (List.mem_of_getElem? hseven) hkind hname
    rfl

/-- The kind of a failure is in the table. -/
theorem kind_errorOf_mem (h : r.Grown) (fault : Fault) : (r.errorOf fault).kind ∈ r.kinds :=
  (h.inStep.kindNamed?_eq_some_iff.mp (h.kindNamed?_builtin fault.builtin)).1

/-- No failure of the library has the number zero. -/
theorem id_errorOf_ne_zero (h : r.Grown) (fault : Fault) : (r.errorOf fault).kind.id ≠ 0 := by
  rw [Ne, h.id_eq_zero_iff (h.kind_errorOf_mem fault), h.name_errorOf, Builtin.name_eq_noError_iff]
  exact fault.builtin_ne_noError

/-- A kind that is found by a number has it. -/
theorem id_of_kindWithId? (h : r.Grown) {id : Int} {kind : ErrorKind}
    (found : r.kindWithId? id = some kind) : kind.id = id := by
  unfold kindWithId? at found
  dsimp only at found
  split at found
  · next fits =>
    have hnumber := h.inStep.number _ kind found
    simp only [Bool.and_eq_true, decide_eq_true_eq] at fits
    omega
  · cases found

/-- **An error that is asked for has the number zero** exactly if it is asked for by the name or by the
number of the kind that stands for no error. -/
theorem id_errorFor_eq_zero_iff (h : r.Grown) (key : ErrorKey) :
    (r.errorFor key).kind.id = 0 ↔ key = .name "NoError" ∨ key = .number 0 := by
  have hseven := h.kinds_seven
  cases key with
  | name name =>
    have hkey : (ErrorKey.name name = .name "NoError" ∨ ErrorKey.name name = .number 0) ↔
        name = "NoError" := by simp
    rw [hkey]
    show (raisedBy (r.kindOfName name)).kind.id = 0 ↔ _
    unfold kindOfName
    cases found : r.kindNamed? name with
    | some kind =>
      obtain ⟨hkind, rfl⟩ := h.inStep.kindNamed?_eq_some_iff.mp found
      exact h.id_eq_zero_iff hkind
    | none =>
      refine iff_of_false (h.id_errorOf_ne_zero _) ?_
      rintro rfl
      have known := h.kindNamed?_builtin .noError
      cases found.symm.trans known
  | number id =>
    have hkey : (ErrorKey.number id = .name "NoError" ∨ ErrorKey.number id = .number 0) ↔ id = 0 := by
      simp
    rw [hkey]
    show (raisedBy (r.kindOfId id)).kind.id = 0 ↔ _
    unfold kindOfId
    cases found : r.kindWithId? id with
    | some kind =>
      show kind.id = 0 ↔ _
      rw [h.id_of_kindWithId? found]
    | none =>
      refine iff_of_false (h.id_errorOf_ne_zero _) ?_
      rintro rfl
      have known : r.kindWithId? 0 = some ⟨0, "NoError", "No errors occurred."⟩ := hseven
      cases found.symm.trans known

end Grown

end Registry

/-! ## Statuses of zero -/

/-- **A status of zero says that the call has returned, or that it has failed with the kind that stands
for no error.** Whatever kinds have been registered and whatever the session is like, a call that returns
has the status zero and changes nothing by it. One that breaks down has another status, and so has one
that fails with a failure of the library's own. The status of one that fails with an error that has been
asked for, by any name or number known or unknown, with any detail and parameters, is zero exactly if it
was asked for by the name or by the number of that kind; the error is kept as the last one even then. -/
theorem status_zero_iff (calls : List Registration) (s : Session) :
    s.settle .returned = (0, s) ∧
    (∀ cause, (s.settle (.brokeDown cause)).1 ≠ 0) ∧
    (∀ fault, (s.settle (.raised ((Registry.seeded.run calls).errorOf fault))).1 ≠ 0) ∧
    ∀ (key : ErrorKey) (detail : String) (params : Option Bytes),
      let e : Raised := ⟨((Registry.seeded.run calls).errorFor key).kind, detail, params⟩
      ((s.settle (.raised e)).1 = 0 ↔ key = .name "NoError" ∨ key = .number 0) ∧
        (s.settle (.raised e)).2.lastError = some e := by
  have grown := Registry.Grown.run calls
  refine ⟨rfl, ?_, ?_, ?_⟩
  · intro cause
    show (6 : Int) ≠ 0
    decide
  · exact fun fault => grown.id_errorOf_ne_zero fault
  · intro key detail params
    exact ⟨grown.id_errorFor_eq_zero_iff key, rfl⟩

/-- A call that does nothing but fail with the error of a name. -/
def failingCall (name : String) : Act Unit := fun s => .error (s.registry.errorOfName name) s

/-- **A failure with the status of success.** The call fails and there is an error to be fetched, but its
status is zero. -/
theorem failure_with_status_zero :
    (∃ e, failingCall "NoError" {} = .error e {}) ∧
    ((failingCall "NoError").atBoundary {}).1 = 0 ∧
    ((failingCall "NoError").atBoundary {}).2.hasError = true ∧
    (failingCall "NoError").atBoundary {} ≠ (pure () : Act Unit).atBoundary {} := by
  refine ⟨⟨_, rfl⟩, by decide +kernel, rfl, ?_⟩
  intro h
  have same := congrArg (·.2.hasError) h
  cases same

end Marshal
