import Marshal.Proofs.Error.Registry

/-!
# `Proofs.Error.Repetition` — a batch that is registered again

A table never forgets a kind and never changes one. So a look-up that finds a kind finds it in every
later table too, an entry that has been registered is there already the next time, and an entry that
has been refused is refused again, with the number of the same kind in the error. A batch that comes
again walks through entries that do nothing up to the place where it stopped the first time, and stops
there for the same reason, also if the kind in the way is one that it has added itself.

## Contents

* `Grown.register` — a registration keeps what is known of a table;
* `Precedes` — a table and a later one;
* `Precedes.kindNamed?_eq_some`, `Precedes.errorOf_eq` — what both tables answer;
* `Precedes.registerAll_eq` — a batch in a table that is later than its outcome;
* `registerAll_repeated` — the same batch again, at once or later.
-/

namespace Marshal.Registry

/-- A registration keeps what is known of a table. -/
theorem Grown.register {r s : Registry} (h : r.Grown) {name message : String}
    (registered : r.register name message = .ok s) : s.Grown := by
  rcases of_register registered with ⟨hnew, rfl⟩ | ⟨rfl, -⟩
  · have new := h.inStep.kindNamed?_eq_none_iff.mp hnew
    exact ⟨h.inStep.insert new message,
      h.kinds_prefix.trans (kinds_prefix_of_register registered)⟩
  · exact h

/-- The kind that a registration has added or found. -/
theorem Grown.kindNamed?_of_register {r s : Registry} (h : r.Grown) {name message : String}
    (registered : r.register name message = .ok s) :
    ∃ kind, s.kindNamed? name = some kind ∧ kind.message = message := by
  have grown := h.register registered
  rcases of_register registered with ⟨-, rfl⟩ | ⟨rfl, found⟩
  · have last : (⟨r.nextId, name, message⟩ : ErrorKind) ∈ (r.insert name message).kinds :=
      List.mem_append_right _ (List.mem_singleton.mpr rfl)
    exact ⟨_, grown.inStep.kindNamed?_eq_some_iff.mpr ⟨last, rfl⟩, rfl⟩
  · exact found

/-! ## A table and a later one -/

/-- A table and one into which it has grown. -/
structure Precedes (r t : Registry) : Prop where
  before : r.Grown
  after : t.Grown
  kinds_prefix : r.kinds <+: t.kinds

namespace Precedes

variable {r t : Registry}

/-- A kind that was found by its name is found in the later table. -/
theorem kindNamed?_eq_some (h : r.Precedes t) {name : String} {kind : ErrorKind}
    (found : r.kindNamed? name = some kind) : t.kindNamed? name = some kind := by
  obtain ⟨hmem, hname⟩ := h.before.inStep.kindNamed?_eq_some_iff.mp found
  exact h.after.inStep.kindNamed?_eq_some_iff.mpr ⟨h.kinds_prefix.subset hmem, hname⟩

/-- Both tables raise the same error for a cause. -/
theorem errorOf_eq (h : r.Precedes t) (fault : Fault) : t.errorOf fault = r.errorOf fault := by
  have hbuiltin : t.builtinKind fault.builtin = r.builtinKind fault.builtin :=
    Option.some.inj ((h.after.kindNamed?_builtin _).symm.trans
      (h.kindNamed?_eq_some (h.before.kindNamed?_builtin _)))
  rw [errorOf, errorOf, hbuiltin]

/-- **What has been refused is refused later**, with the same error. -/
theorem register_eq_error (h : r.Precedes t) {name message : String} {error : Raised}
    (refused : r.register name message = .error error) : t.register name message = .error error := by
  unfold register at refused ⊢
  cases found : r.kindNamed? name with
  | none =>
    rw [found] at refused
    cases refused
  | some kind =>
    rw [found] at refused
    rw [h.kindNamed?_eq_some found]
    dsimp only at refused ⊢
    split at refused
    · cases refused
    · next other => rw [if_neg other, h.errorOf_eq, refused]

/-- **What has been registered is there later**, and registering it changes nothing. -/
theorem register_eq_self {s : Registry} (h : s.Precedes t) (grown : r.Grown) {name message : String}
    (registered : r.register name message = .ok s) : t.register name message = .ok t := by
  obtain ⟨kind, found, hmessage⟩ := grown.kindNamed?_of_register registered
  rw [register, h.kindNamed?_eq_some found]
  exact if_pos hmessage

/-- **A batch whose outcome is in the table has that outcome again**, and leaves the table alone. The
induction is on the entries: those before the place where the batch stopped do nothing. -/
theorem registerAll_eq {entries : List (String × String)} (grown : r.Grown) (after : t.Grown)
    (reached : (r.registerAll entries).2.kinds <+: t.kinds) :
    t.registerAll entries = ((r.registerAll entries).1, t) := by
  induction entries generalizing r with
  | nil => rfl
  | cons e rest ih =>
    cases hone : r.register e.1 e.2 with
    | ok s =>
      have hfirst : r.registerAll (e :: rest) = s.registerAll rest := by rw [registerAll, hone]
      rw [hfirst] at reached ⊢
      have later : s.Precedes t :=
        ⟨grown.register hone, after, (s.kinds_prefix_registerAll rest).trans reached⟩
      have hagain : t.registerAll (e :: rest) = t.registerAll rest := by
        rw [registerAll, later.register_eq_self grown hone]
      rw [hagain]
      exact ih later.before reached
    | error error =>
      have hfirst : r.registerAll (e :: rest) = (some error, r) := by rw [registerAll, hone]
      rw [hfirst] at reached ⊢
      have later : r.Precedes t := ⟨grown, after, reached⟩
      rw [registerAll, later.register_eq_error hone]

end Precedes

/-! ## The same batch again -/

/-- **Registering a batch is idempotent, also if it fails.** Whatever has been registered before and
whatever is in the batch, the second time it has the result that it had the first time, be it success
or an error with its kind and its detail, and the table stays as the first time has left it. The result
is the same still if other registrations come in between. -/
theorem registerAll_repeated (calls : List Registration) (entries : List (String × String)) :
    ((seeded.run calls).registerAll entries).2.registerAll entries =
        (seeded.run calls).registerAll entries ∧
      ∀ more : List Registration,
        (((seeded.run calls).registerAll entries).2.run more).registerAll entries =
          (((seeded.run calls).registerAll entries).1,
            ((seeded.run calls).registerAll entries).2.run more) := by
  have hrun : ((seeded.run calls).registerAll entries).2 =
      seeded.run (calls ++ [.batch entries]) := by
    rw [run_append]
    rfl
  have hlater : ∀ more : List Registration,
      (((seeded.run calls).registerAll entries).2.run more).registerAll entries =
        (((seeded.run calls).registerAll entries).1,
          ((seeded.run calls).registerAll entries).2.run more) := by
    intro more
    have grown : (((seeded.run calls).registerAll entries).2.run more).Grown := by
      rw [hrun, ← run_append]
      exact Grown.run _
    exact Precedes.registerAll_eq (Grown.run calls) grown (kinds_prefix_run _ more)
  exact ⟨hlater [], hlater⟩

/-- A batch that contradicts itself in its third entry stops there twice, for the kind that its first
entry has added. -/
example :
    ((seeded.registerAll [("Stalled", "Too slow."), ("NoError", "No errors occurred."),
        ("Stalled", "Too fast."), ("Lost", "Gone.")]).2.registerAll
      [("Stalled", "Too slow."), ("NoError", "No errors occurred."), ("Stalled", "Too fast."),
        ("Lost", "Gone.")]).1.map (·.detail) =
      some "Stalled is already registered with id -39" := by decide +kernel

end Marshal.Registry
