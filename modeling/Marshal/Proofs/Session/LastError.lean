import Mathlib.Data.List.Induction
import Marshal.Proofs.Session.Delivery

/-!
# `Proofs.Session.LastError` — statuses and the last error over whole runs

Calls end in statuses, and the ones that fail leave an error behind. A call can make other calls before
it ends, so calls complete inside out, and what counts for the last error is the order in which they
complete. A run with nested calls is therefore laid out as the sequence of its steps, in which each call
stands where it ends. What a step does to the last error does not depend on the session: it leaves it,
empties it, or puts a certain error there. So after any part of a run the last error is that of the last
step that does not leave it.

## Contents

* `Elsewhere`, `BoundaryStep`, `BoundaryEvent` — what happens in a run, one after the other and nested;
* `BoundaryEvent.runAll_eq` — a run does what its steps do;
* `deliverParams_host`, `Grown.errorOf_breakdown` — what a call does before it keeps its error;
* `BoundaryStep.effect`, `Pending` — what a step does to the last error, and the error that is left;
* `lastError_spec` — statuses and the last error, after every part of every run.
-/

namespace Marshal

open Marshal.Host Marshal.Text

/-! ## Runs -/

/-- Something that has nothing to do with the last error: it may change the host and its links, the
symbol for parameters and everything else, and it may register kinds of errors. -/
structure Elsewhere where
  apply : Session → Session
  lastError : ∀ s, (apply s).lastError = s.lastError
  registry : ∀ s, ∃ calls, (apply s).registry = s.registry.run calls

/-- One step of a run: a call ends, an error is kept, read, taken or forgotten, or something happens
elsewhere. -/
inductive BoundaryStep
  | ended (ending : Ending)
  | keep (e : Raised)
  | readText
  | takeText
  | take
  | clear
  | elsewhere (change : Elsewhere)

/-- What happens in a run: a step, or a call in which other things happen before it ends. -/
inductive BoundaryEvent
  | single (step : BoundaryStep)
  | call (inside : List BoundaryEvent) (ending : Ending)

/-- What is answered: the status of a call, the text of the last error, or that error itself. -/
inductive BoundaryAnswer
  | status (code : Int)
  | text (text : Option String)
  | error (e : Option Raised)
  deriving DecidableEq

namespace BoundaryStep

/-- The answer to a step, if it has one, and the session after it. -/
def run : BoundaryStep → Session → Option BoundaryAnswer × Session
  | ended ending, s =>
    let (code, s) := s.settle ending
    (some (.status code), s)
  | keep e, s => (none, s.keepError e)
  | readText, s => (some (.text s.errorText?), s)
  | takeText, s =>
    let (text, s) := s.takeErrorText
    (some (.text text), s)
  | take, s =>
    let (e, s) := s.takeError
    (some (.error e), s)
  | clear, s => (none, s.forgetError)
  | elsewhere change, s => (none, change.apply s)

/-- The answers to steps, one after the other, and the session after them. -/
def runAll : List BoundaryStep → Session → List BoundaryAnswer × Session
  | [], s => ([], s)
  | step :: rest, s =>
    let (answer, s) := step.run s
    let (answers, s) := runAll rest s
    (answer.toList ++ answers, s)

theorem runAll_append (steps more : List BoundaryStep) (s : Session) :
    runAll (steps ++ more) s =
      ((runAll steps s).1 ++ (runAll more (runAll steps s).2).1,
        (runAll more (runAll steps s).2).2) := by
  induction steps generalizing s with
  | nil => rfl
  | cons step rest ih =>
    show runAll (step :: (rest ++ more)) s = _
    simp only [runAll, ih, List.append_assoc]

end BoundaryStep

namespace BoundaryEvent

mutual

/-- What an event answers, inner calls first, and the session after it. -/
def run : BoundaryEvent → Session → List BoundaryAnswer × Session
  | single step, s =>
    let (answer, s) := step.run s
    (answer.toList, s)
  | call inside ending, s =>
    let (answers, s) := runAll inside s
    let (code, s) := s.settle ending
    (answers ++ [.status code], s)

/-- The same for events one after the other. -/
def runAll : List BoundaryEvent → Session → List BoundaryAnswer × Session
  | [], s => ([], s)
  | event :: rest, s =>
    let (answers, s) := run event s
    let (more, s) := runAll rest s
    (answers ++ more, s)

end

mutual

/-- The steps of an event. A call ends after all that happens in it. -/
def steps : BoundaryEvent → List BoundaryStep
  | single step => [step]
  | call inside ending => stepsOf inside ++ [.ended ending]

/-- The steps of events one after the other. -/
def stepsOf : List BoundaryEvent → List BoundaryStep
  | [] => []
  | event :: rest => steps event ++ stepsOf rest

end

mutual

theorem run_eq (event : BoundaryEvent) (s : Session) :
    run event s = BoundaryStep.runAll (steps event) s := by
  cases event with
  | single step =>
    rw [run, steps]
    simp only [BoundaryStep.runAll, List.append_nil]
  | call inside ending =>
    rw [run, steps, BoundaryStep.runAll_append, runAll_eq inside s]
    rfl

/-- **A run with nested calls does what its steps do**, one after the other. -/
theorem runAll_eq (events : List BoundaryEvent) (s : Session) :
    runAll events s = BoundaryStep.runAll (stepsOf events) s := by
  cases events with
  | nil => rfl
  | cons event rest =>
    rw [runAll, stepsOf, BoundaryStep.runAll_append, run_eq event s]
    simp only [runAll_eq rest]

end

end BoundaryEvent

/-! ## The end of a call -/

/-- Assigning parameters does something to the host and to nothing else. -/
theorem Act.assignParams_evolves (symbol : String) (params : Expr) (s : Session) :
    ∃ w, Evolves s.host w ∧ (outcome (assignParams symbol params) s).2 = { s with host := w } := by
  unfold assignParams
  rw [outcome_bind, outcome_read]
  cases hlink : s.currentLink.toOption with
  | none => exact ⟨s.host, .refl _, rfl⟩
  | some link =>
    dsimp only
    rw [outcome_bind]
    obtain ⟨w, hsent, hstate⟩ :=
      sendExpr_evolves s link (Expr.evaluatePacket (Expr.set symbol params))
    rcases hout : outcome (sendExpr link (Expr.evaluatePacket (Expr.set symbol params))) s with
      ⟨_ | _, t⟩
    · rw [hout] at hstate
      exact ⟨w, hsent, hstate⟩
    · rw [hout] at hstate
      dsimp only at hstate ⊢
      subst hstate
      obtain ⟨w', hdone, hstate'⟩ := evaluateLink_evolves { s with host := w } link
      exact ⟨w', hsent.trans hdone, hstate'⟩

/-- **Delivering parameters leaves all but the host**, whether or not they arrive. -/
theorem Session.deliverParams_evolves (s : Session) (e : Raised) (symbol : String) :
    ∃ w, Evolves s.host w ∧ (s.deliverParams e symbol).2 = { s with host := w } := by
  unfold deliverParams
  cases e.params with
  | none => exact ⟨s.host, .refl _, rfl⟩
  | some bytes =>
    dsimp only
    cases Expr.decode bytes with
    | error fault => exact ⟨s.host, .refl _, rfl⟩
    | ok params =>
      dsimp only
      obtain ⟨w, hev, hstate⟩ := Act.assignParams_evolves symbol params s
      refine ⟨w, hev, ?_⟩
      rw [← hstate, outcome]
      cases Act.assignParams symbol params s <;> rfl

/-- The status of an ending. -/
def Ending.status : Ending → Int
  | .returned => 0
  | .raised e => e.kind.id
  | .brokeDown _ => 6

/-- The error that a breakdown leaves. -/
def Breakdown.error (cause : Breakdown) : Raised :=
  ⟨⟨6, "FunctionError", "An error occurred in the library function."⟩, cause.message, none⟩

/-- A breakdown leaves the error of a failed function, with the text as its detail, in every table
that has grown from the one of the built-in kinds. -/
theorem Registry.Grown.errorOf_breakdown {r : Registry} (grown : r.Grown) (cause : Breakdown) :
    r.errorOf (.breakdown cause.message) = cause.error := by
  have hseeded : (⟨6, "FunctionError", "An error occurred in the library function."⟩ : ErrorKind) ∈
      Registry.seeded.kinds := by decide +kernel
  have hfound : r.kindNamed? "FunctionError" =
      some ⟨6, "FunctionError", "An error occurred in the library function."⟩ := by
    rw [grown.inStep.kindNamed?_eq_some_iff]
    exact ⟨grown.kinds_prefix.subset hseeded, rfl⟩
  have hkind : r.builtinKind .function =
      ⟨6, "FunctionError", "An error occurred in the library function."⟩ := by
    show (r.kindNamed? "FunctionError").getD _ = _
    rw [hfound]
    rfl
  show (Raised.ofKind (r.builtinKind .function)).withDetail cause.message = _
  rw [hkind]
  rfl

/-! ## What a step does to the last error -/

namespace BoundaryStep

/-- What a step does to the last error: nothing, or there is an error or none after it, whatever there
was before. -/
def effect : BoundaryStep → Option (Option Raised)
  | ended .returned => none
  | ended (.raised e) => some (some e)
  | ended (.brokeDown cause) => some (some cause.error)
  | keep e => some (some e)
  | readText => none
  | takeText => some none
  | take => some none
  | clear => some none
  | elsewhere _ => none

variable {s : Session}

/-- **Step lemma.** A step does to the last error what its effect says, and the table of kinds changes by
registrations only. -/
theorem run_effect (registered : ∃ calls, s.registry = Registry.seeded.run calls)
    (step : BoundaryStep) :
    (step.run s).2.lastError = step.effect.getD s.lastError ∧
      ∃ calls, (step.run s).2.registry = Registry.seeded.run calls := by
  cases step with
  | ended ending =>
    cases ending with
    | returned => exact ⟨rfl, registered⟩
    | raised e =>
      -- delivering the parameters comes between the failure and the keeping of its error
      obtain ⟨w, -, hdelivered⟩ := s.deliverParams_evolves e s.symbol
      show ((s.deliverParams e s.symbol).2.keepError e).lastError = some e ∧
        ∃ calls, ((s.deliverParams e s.symbol).2.keepError e).registry = _
      rw [hdelivered]
      exact ⟨rfl, registered⟩
    | brokeDown cause =>
      obtain ⟨calls, hcalls⟩ := registered
      have herror : s.registry.errorOf (.breakdown cause.message) = cause.error := by
        rw [hcalls]
        exact (Registry.Grown.run calls).errorOf_breakdown cause
      show some (s.registry.errorOf (.breakdown cause.message)) = some cause.error ∧ _
      rw [herror]
      exact ⟨rfl, calls, hcalls⟩
  | keep e => exact ⟨rfl, registered⟩
  | readText => exact ⟨rfl, registered⟩
  | takeText => exact ⟨rfl, registered⟩
  | take => exact ⟨rfl, registered⟩
  | clear => exact ⟨rfl, registered⟩
  | elsewhere change =>
    obtain ⟨calls, hcalls⟩ := registered
    obtain ⟨more, hmore⟩ := change.registry s
    refine ⟨change.lastError s, calls ++ more, ?_⟩
    show (change.apply s).registry = _
    rw [hmore, hcalls, Registry.run_append]

end BoundaryStep

/-- The error that steps leave: that of the last one that puts an error there, if none of the later
ones empties its place. -/
def Pending (steps : List BoundaryStep) (e : Raised) : Prop :=
  MostRecent (·.effect = some (some e)) (·.effect = none) steps

/-- **Run lemma.** The last error after some steps is the one that they leave. -/
theorem BoundaryStep.lastError_runAll {s : Session}
    (registered : ∃ calls, s.registry = Registry.seeded.run calls) (empty : s.lastError = none)
    (steps : List BoundaryStep) :
    (∀ e, (runAll steps s).2.lastError = some e ↔ Pending steps e) ∧
      ∃ calls, (runAll steps s).2.registry = Registry.seeded.run calls := by
  -- the induction is on the last step, since that is the one which decides
  induction steps using List.reverseRecOn with
  | nil =>
    refine ⟨?_, registered⟩
    intro e
    show s.lastError = some e ↔ _
    rw [empty]
    exact iff_of_false nofun MostRecent.not_nil
  | append_singleton steps step ih =>
    obtain ⟨hlast, hregistered⟩ := ih
    obtain ⟨heffect, hregistered'⟩ := run_effect hregistered step
    rw [runAll_append]
    refine ⟨?_, hregistered'⟩
    intro e
    show (step.run (runAll steps s).2).2.lastError = some e ↔ _
    rw [heffect]
    cases hstep : step.effect with
    | none =>
      have hquiet : ¬ step.effect = some (some e) := by simp [hstep]
      have hsame : Pending (steps ++ [step]) e ↔ Pending steps e :=
        MostRecent.snoc_of_quiet hquiet hstep
      rw [hsame]
      exact hlast e
    | some kept =>
      have hloud : ¬ step.effect = none := by simp [hstep]
      have hdecided : Pending (steps ++ [step]) e ↔ step.effect = some (some e) :=
        MostRecent.snoc_of_not_quiet hloud
      rw [hdecided, hstep, Option.some_inj]
      rfl

/-! ## Every run -/

/-- The text for the host is the whole text of the error, with a question mark for every NUL. -/
theorem Raised.hostText_spec (e : Raised) :
    e.hostText.toList = e.display.toList.map (fun c => if c = '\x00' then '?' else c) ∧
      '\x00' ∉ e.hostText.toList := by
  have htext : e.hostText.toList =
      e.display.toList.map (fun c => if c = '\x00' then '?' else c) := String.toList_ofList
  refine ⟨htext, ?_⟩
  rw [htext]
  intro hmem
  obtain ⟨c, -, hc⟩ := List.mem_map.mp hmem
  by_cases hnul : c = '\x00'
  · rw [if_pos hnul] at hc
    cases hc
  · rw [if_neg hnul] at hc
    exact hnul hc

/-- **Statuses and the last error.** Calls are nested in each other to any depth, each with any ending,
and between them errors are kept, read, taken and forgotten, while anything may happen to the host and
its links, to the symbol and to the table of kinds. A run answers what its steps answer, one after the
other as calls complete. Whatever the session is like, the status of a call is zero if it returns, the
number of its error if it fails, and six if it breaks down. After every part of a run, the last error
is that of the call that has failed or the error that has been kept most recently, if it has not been
taken or forgotten since, and there is none otherwise; every question about it agrees. Reading its text
leaves it; taking its text gives the same text and leaves no error. -/
theorem lastError_spec {s : Session} (registered : ∃ calls, s.registry = Registry.seeded.run calls)
    (empty : s.lastError = none) (events : List BoundaryEvent) :
    BoundaryEvent.runAll events s = BoundaryStep.runAll (BoundaryEvent.stepsOf events) s ∧
    (∀ done rest, BoundaryEvent.stepsOf events = done ++ rest →
      ∀ t, (BoundaryStep.runAll done s).2 = t →
        (∃ e, Pending done e ∧ t.lastError = some e ∧ t.hasError = true ∧
          t.errorStatus = e.kind.id ∧ t.errorId? = some e.kind.id) ∨
        ((∀ e, ¬ Pending done e) ∧ t.lastError = none ∧ t.hasError = false ∧
          t.errorStatus = 0 ∧ t.errorId? = none)) ∧
    (∀ (t : Session) (ending : Ending),
      ((BoundaryStep.ended ending).run t).1 = some (.status ending.status)) ∧
    (∀ (t u : Session) (body : Act Unit), body t = .ok () u → body.atBoundary t = (0, u)) ∧
    (∀ (t u : Session) (body : Act Unit) (e : Raised), body t = .error e u →
      (body.atBoundary t).1 = e.kind.id ∧ (body.atBoundary t).2.lastError = some e) ∧
    (∀ t : Session, BoundaryStep.readText.run t = (some (.text (t.lastError.map Raised.hostText)), t) ∧
      BoundaryStep.takeText.run t =
        (some (.text (t.lastError.map Raised.hostText)), { t with lastError := none })) ∧
    (∀ e : Raised,
      e.hostText.toList = e.display.toList.map (fun c => if c = '\x00' then '?' else c) ∧
        '\x00' ∉ e.hostText.toList) := by
  refine ⟨BoundaryEvent.runAll_eq events s, ?_, ?_, ?_, ?_, ?_, Raised.hostText_spec⟩
  · rintro done rest - t rfl
    obtain ⟨hlast, -⟩ := BoundaryStep.lastError_runAll registered empty done
    cases herror : (BoundaryStep.runAll done s).2.lastError with
    | some e =>
      refine .inl ⟨e, (hlast e).mp herror, rfl, ?_⟩
      simp [Session.hasError, Session.errorStatus, Session.errorId?, herror]
    | none =>
      refine .inr ⟨?_, rfl, ?_⟩
      · intro e hpending
        rw [(hlast e).mpr hpending] at herror
        cases herror
      · simp [Session.hasError, Session.errorStatus, Session.errorId?, herror]
  · intro t ending
    cases ending <;> rfl
  · intro t u body hreturned
    rw [Act.atBoundary, hreturned]
    rfl
  · intro t u body e hfailed
    rw [Act.atBoundary, hfailed]
    exact ⟨rfl, rfl⟩
  · intro t
    exact ⟨rfl, rfl⟩

/-- An error with a parameter. -/
def stalled : Raised := (Raised.ofKind ⟨-39, "Stalled", "Too slow."⟩).attachParams [.integer 3]

/-- The callback table is removed. -/
def detaching : Elsewhere where
  apply := Session.detach
  lastError _ := rfl
  registry _ := ⟨[], rfl⟩

/-- A call that breaks down after a call inside it has failed, one that returns, and one that fails
without a callback table. -/
def nestedCalls : List BoundaryEvent :=
  [.single (.keep stalled),
    .call [.call [] (.raised (stalled.withDetail "inner")), .single .readText]
      (.brokeDown (.text "out of\x00range")),
    .call [] .returned, .single .readText, .single .takeText, .single .readText,
    .call [.single (.elsewhere detaching)] (.raised stalled)]

/-- The inner call completes first, the returning call leaves the error of the breakdown, and in the end
there is the error of the last call. -/
theorem lastError_spec_nestedCalls :
    (BoundaryEvent.runAll nestedCalls {}).1 =
      [.status (-39), .text (some "Stalled (-39): Too slow. [inner]"), .status 6, .status 0,
        .text (some "FunctionError (6): An error occurred in the library function. [out of?range]"),
        .text (some "FunctionError (6): An error occurred in the library function. [out of?range]"),
        .text none, .status (-39)] ∧
      Pending (BoundaryEvent.stepsOf nestedCalls) stalled ∧
      (BoundaryEvent.runAll nestedCalls {}).2.errorStatus = -39 := by
  obtain ⟨hsteps, hparts, -⟩ := lastError_spec (s := {}) ⟨[], rfl⟩ rfl nestedCalls
  have hlast : (BoundaryEvent.runAll nestedCalls {}).2.lastError = some stalled := by
    decide +kernel
  rw [hsteps] at hlast ⊢
  rcases hparts _ [] (List.append_nil _).symm _ rfl with
    ⟨e, hpending, herror, -, hstatus, -⟩ | ⟨-, hnone, -⟩
  · obtain rfl : e = stalled := Option.some.inj (herror.symm.trans hlast)
    exact ⟨by decide +kernel, hpending, hstatus⟩
  · rw [hlast] at hnone
    cases hnone

end Marshal
