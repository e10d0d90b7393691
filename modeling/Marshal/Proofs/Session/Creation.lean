import Marshal.Proofs.Host.Rollback
import Marshal.Proofs.Session.Workspace

/-!
# `Proofs.Session.Creation` — creation that fails leaves nothing behind

Containers are made by creating arrays, with or without elements, by converting and by copying, and
copies are made to be assigned. Each of these asks the host for something new and fails if it gets
none; an array whose elements do not fit its shape is released again before that is reported. After
a failure the host holds what it has held, the variables have kept their containers, and all that is
left is that some numbers have been given out.

## Contents

* `Act.outcome_newArray`, `Act.outcome_arrayOf` — creation as an equation;
* `Act.Succeeds`, `Act.LeavesNothing` — actions that never fail, and those that fail without a trace;
* `SideOp.Creates` — the operations that make containers;
* `failed_creation_leaves_nothing` — the statement for all of them.
-/

namespace Marshal

open Marshal.Host

/-! ## Creation as an equation -/

/-- The container that an array has just been made for. -/
def Session.newest (s : Session) (type : ElementType) : Container :=
  ⟨type.family.containerKind, .manual, s.host.nextId⟩

/-- Without a table the host makes nothing. -/
theorem Act.outcome_request_of_detached {α : Type} {s : Session} (detached : ¬ s.attached = true)
    (standIn : α) (action : Host → α × Host) :
    outcome (Act.request standIn action) s = (some standIn, s) := by
  rw [outcome, Act.request, Session.request_of_detached (Bool.eq_false_iff.mpr detached)]

theorem Act.outcome_newArray {s : Session} (attached : s.attached = true) (type : ElementType)
    (dims : List Int) :
    outcome (Act.newArray type dims) s =
      match Dense.create? type dims with
      | some d => (some (s.newest type), { s with host := (s.host.addArray d).2 })
      | none => (none, s) := by
  rw [Act.newArray, outcome_bind, outcome_request attached, Host.newArray]
  cases Dense.create? type dims <;> rfl

/-- Releasing what has just been made frees it. -/
theorem Act.outcome_release_newest {s : Session} (attached : s.attached = true)
    (hpos : 0 < s.host.nextId) (type : ElementType) (d : Dense) :
    outcome (s.newest type).release { s with host := (s.host.addArray d).2 } =
      (some (), { s with host := (s.host.addArray d).2.freeArray s.host.nextId }) := by
  have hnull : s.host.nextId ≠ Handle.null := Nat.ne_of_gt hpos
  have attached' : ({ s with host := (s.host.addArray d).2 } : Session).attached = true := attached
  have hact : (s.newest type).release = Act.order (·.freeArray s.host.nextId) := by
    cases type <;> exact if_neg hnull
  rw [hact, Act.order, outcome_request attached']

/-- **An array with given elements** is made if there are as many as the shape says. Otherwise it is
    freed again. -/
theorem Act.outcome_arrayOf {s : Session} (attached : s.attached = true) (hpos : 0 < s.host.nextId)
    (type : ElementType) (dims : List Int) (values : List Scalar) :
    outcome (Act.arrayOf type dims values) s =
      match Dense.create? type dims with
      | some d =>
        if d.length = values.length then
          (some (s.newest type),
            { s with host := (s.host.addArray d).2.overwriteArray s.host.nextId 0 values })
        else (none, { s with host := (s.host.addArray d).2.freeArray s.host.nextId })
      | none => (none, s) := by
  rw [Act.arrayOf, outcome_bind, outcome_newArray attached]
  cases hd : Dense.create? type dims with
  | none => rfl
  | some d =>
    have hnull : (s.newest type).handle ≠ Handle.null := Nat.ne_of_gt hpos
    have live : (s.host.addArray d).2.arrays.get? (s.newest type).handle = some d :=
      Table.get?_insert_self ..
    obtain rfl := Moves.type_create? hd
    have attached' : ({ s with host := (s.host.addArray d).2 } : Session).attached = true := attached
    have elements : (s.newest d.type).elements d.type { s with host := (s.host.addArray d).2 } =
        .ok d.elements := Moves.elements_of_live attached hnull live
    dsimp only
    rw [outcome_bind, outcome_read, elements]
    dsimp only [Except.toOption]
    by_cases hlength : d.length = values.length
    · rw [if_neg (by rw [Dense.length_elements]; exact not_not_intro hlength), if_pos hlength,
        outcome_bind, Moves.outcome_write attached' elements]
      rfl
    · rw [if_pos (by rwa [Dense.length_elements]), if_neg hlength, outcome_bind,
        outcome_release_newest attached hpos]
      rfl

/-! ## Failing without a trace -/

namespace Act

variable {α β : Type}

/-- An action that does not fail. -/
def Succeeds (act : Act α) : Prop := ∀ s, (outcome act s).1.isSome = true

/-- **An action that leaves nothing behind when it fails.** -/
def LeavesNothing (act : Act α) : Prop :=
  ∀ s made, History made s.host → (outcome act s).1 = none →
    (outcome act s).2 = { s with host := (outcome act s).2.host } ∧
      Restored s.host (outcome act s).2.host

namespace Succeeds

theorem pure (a : α) : Succeeds (Pure.pure a) := fun _ => rfl

theorem bind {act : Act α} {f : α → Act β} (h : Succeeds act) (hf : ∀ a, Succeeds (f a)) :
    Succeeds (act >>= f) := by
  intro s
  have hs := h s
  rw [outcome_bind]
  rcases hout : outcome act s with ⟨_ | a, t⟩
  · rw [hout] at hs
    cases hs
  · exact hf a t

theorem releaseHandle (kind : ContainerKind) (mode : Passing) (h : Handle) :
    Succeeds (Act.releaseHandle kind mode h) := by
  unfold Act.releaseHandle
  split
  · exact pure ()
  · cases mode <;> cases kind <;> intro s <;> rfl

theorem clear (c : Container) : Succeeds c.clear :=
  (releaseHandle c.kind c.mode c.handle).bind fun _ => pure _

end Succeeds

namespace LeavesNothing

theorem of_succeeds {act : Act α} (h : Succeeds act) : LeavesNothing act := by
  intro s made past failed
  have hs := h s
  rw [failed] at hs
  cases hs

/-- What follows on an action may not fail, because the action is not undone. -/
theorem bind {act : Act α} {f : α → Act β} (h : LeavesNothing act) (hf : ∀ a, Succeeds (f a)) :
    LeavesNothing (act >>= f) := by
  intro s made past failed
  have hs := h s made past
  rw [outcome_bind] at failed ⊢
  rcases hout : outcome act s with ⟨_ | a, t⟩
  · rw [hout] at hs
    exact hs rfl
  · rw [hout] at failed
    have ha := hf a t
    dsimp only at failed
    rw [failed] at ha
    cases ha

/-- A request that the host may refuse. -/
theorem request {action : Host → Option α × Host} {rest : Option α → Act β} {fault : Fault}
    (refused : ∀ w made, History made w → (action w).1 = none → Restored w (action w).2)
    (hnone : rest none = Act.fail fault) (hsome : ∀ a, Succeeds (rest (some a))) :
    LeavesNothing (Act.request none action >>= rest) := by
  intro s made past failed
  rw [outcome_bind] at failed ⊢
  by_cases hattached : s.attached = true
  · rw [outcome_request hattached] at failed ⊢
    cases hanswer : (action s.host).1 with
    | none =>
      dsimp only
      rw [hnone]
      exact ⟨rfl, refused s.host made past hanswer⟩
    | some a =>
      have ha := hsome a { s with host := (action s.host).2 }
      rw [hanswer] at failed
      dsimp only at failed
      rw [failed] at ha
      cases ha
  · rw [outcome_request_of_detached hattached]
    dsimp only
    rw [hnone]
    exact ⟨rfl, .refl s.host⟩

/-- An array that is not there is not added. -/
theorem addArray?_refused {w : Host} {d : Option Dense} (h : (w.addArray? d).1 = none) :
    Restored w (w.addArray? d).2 := by
  cases d with
  | none => exact .refl w
  | some d => cases h

theorem newArray (type : ElementType) (dims : List Int) :
    LeavesNothing (Act.newArray type dims) :=
  request (fun _ _ _ h => addArray?_refused h) rfl fun _ => .pure _

theorem convert (c : Container) (target : NumericType) (method : Method)
    (tolerance : Number.Real64) : LeavesNothing (c.convert target method tolerance) :=
  request (fun _ _ _ h => addArray?_refused h) rfl fun _ => .pure _

theorem copyHandle (kind : ContainerKind) (h : Handle) : LeavesNothing (Act.copyHandle kind h) := by
  unfold Act.copyHandle
  split
  · exact of_succeeds (.pure h)
  · cases kind with
    | tensor => exact request (fun _ _ _ h => addArray?_refused h) rfl fun _ => .pure _
    | numericArray => exact request (fun _ _ _ h => addArray?_refused h) rfl fun _ => .pure _
    | collection =>
      exact request (fun _ _ past failed => copyCollection_restored past.sound.is_bounded failed) rfl
        fun _ => .pure _

theorem copy (c : Container) : LeavesNothing c.copy :=
  (copyHandle c.kind c.handle).bind fun _ => .pure _

/-- The copy that is assigned is made before anything is released. -/
theorem replaceBy (c other : Container) : LeavesNothing (c.replaceBy other) :=
  (copyHandle c.kind other.handle).bind fun _ => (Succeeds.clear c).bind fun _ => .pure _

/-- The array is made before its elements are counted, and freed if they do not fit. -/
theorem arrayOf (type : ElementType) (dims : List Int) (values : List Scalar) :
    LeavesNothing (Act.arrayOf type dims values) := by
  intro s made past failed
  by_cases hattached : s.attached = true
  · rw [outcome_arrayOf hattached past.sound.next_pos] at failed ⊢
    cases hd : Dense.create? type dims with
    | none => exact ⟨rfl, .refl s.host⟩
    | some d =>
      rw [hd] at failed
      dsimp only at failed ⊢
      split at failed
      · cases failed
      · next hlength =>
        rw [if_neg hlength]
        exact ⟨rfl, freeArray_restored past.sound.is_bounded d⟩
  · have hnone : outcome (Act.newArray type dims) s = (none, s) := by
      rw [Act.newArray, outcome_bind, outcome_request_of_detached hattached]
      rfl
    rw [Act.arrayOf, outcome_bind, hnone]
    exact ⟨rfl, .refl s.host⟩

end LeavesNothing

end Act

/-! ## Operations that make containers -/

namespace SideOp

/-- The operations that make a container, or a copy to be assigned. -/
inductive Creates : SideOp → Prop
  | newArray (x : Nat) (type : ElementType) (dims : List Int) : Creates (.newArray x type dims)
  | arrayOf (x : Nat) (type : ElementType) (dims : List Int) (values : List Scalar) :
    Creates (.arrayOf x type dims values)
  | convert (x y : Nat) (target : NumericType) (method : Method) (tolerance : Number.Real64) :
    Creates (.convert x y target method tolerance)
  | copy (x y : Nat) : Creates (.copy x y)
  | assign (x y : Nat) : Creates (.assign x y)

variable {vars : Table Container}

theorem on_leavesNothing (x : Nat) {act : Container → Act (Table Container)}
    (hact : ∀ c, (act c).LeavesNothing) : (on vars x act).LeavesNothing := by
  unfold on
  split
  · exact hact _
  · exact .of_succeeds (.pure vars)

/-- Putting something into a variable does not fail. -/
theorem store_succeeds (x : Nat) (c : Container) : (store vars x c).Succeeds := by
  have hvacate : (vacate vars x).Succeeds := by
    unfold vacate
    split
    · exact Act.Succeeds.releaseHandle _ _ _
    · exact .pure ()
  exact hvacate.bind fun _ => .pure _

/-- **Every operation that makes a container** leaves nothing behind when it fails. -/
theorem Creates.leavesNothing {op : SideOp} (h : op.Creates) (vars : Table Container) :
    (op.act vars).LeavesNothing := by
  cases h with
  | newArray x type dims => exact (Act.LeavesNothing.newArray type dims).bind (store_succeeds x)
  | arrayOf x type dims values =>
    exact (Act.LeavesNothing.arrayOf type dims values).bind (store_succeeds x)
  | convert x y target method tolerance =>
    exact on_leavesNothing y fun c =>
      (Act.LeavesNothing.convert c target method tolerance).bind (store_succeeds x)
  | copy x y =>
    exact on_leavesNothing y fun c => (Act.LeavesNothing.copy c).bind (store_succeeds x)
  | assign x y =>
    exact on_leavesNothing x fun c => on_leavesNothing y fun other =>
      (Act.LeavesNothing.replaceBy c other).bind fun _ => .pure _

end SideOp

/-! ## The statement -/

/-- **Creation that fails leaves nothing behind.** Take any state that the host can get to and any
    variables, in whatever modes and with whatever handles. If creating an array, making one of given
    elements, converting, copying or assigning fails, then the variables are what they were, the
    receiver of an assignment among them, the host has the arrays, collections, places and links that
    it had, and releases are counted at most for numbers that were given out on the way. Nothing else
    about the session has changed. -/
theorem failed_creation_leaves_nothing {made : List (Handle × Use)} {ws : Workspace} {op : SideOp}
    (past : History made ws.session.host) (creates : op.Creates)
    (failed : (outcome (op.act ws.vars) ws.session).1 = none) :
    (ws.step (.move op)).vars = ws.vars ∧
    (ws.step (.move op)).session =
      { ws.session with host := (ws.step (.move op)).session.host } ∧
    Restored ws.session.host (ws.step (.move op)).session.host ∧
    (ws.step (.move op)).session.host.liveCount = ws.session.host.liveCount := by
  obtain ⟨hsession, hrestored⟩ := creates.leavesNothing ws.vars ws.session made past failed
  have hstep : (ws.step (.move op)).session = (outcome (op.act ws.vars) ws.session).2 :=
    ws.session_step (.move op)
  rw [hstep]
  refine ⟨?_, hsession, hrestored, hrestored.liveCount⟩
  have hact : (LibraryOp.move op).act ws.vars = op.act ws.vars := rfl
  rw [outcome] at failed
  rw [Workspace.step, hact]
  generalize op.act ws.vars ws.session = r at failed ⊢
  cases r with
  | ok vars s => cases failed
  | error e s => cases creates <;> rfl

/-- A list with an array and a list, which holds a copied list and a handle of nothing. -/
def brokenList : Workspace where
  session := { host := run {} [.newCollection, .hostArray (.numeric .int8) [2], .newCollection,
    .newCollection, .addNode 4 none (.integer 7), .addNode 3 none (.collection 4),
    .addNode 3 none (.tensor 99), .addNode 1 none (.tensor 2), .addNode 1 none (.collection 3)] }
  vars := (({} : Table Container).insert 0 ⟨.collection, .manual, 1⟩).insert 1
    ⟨.collection, .shared, 3⟩

/-- A copy of it fails in the inner list, after an array and a third list have been copied. -/
theorem failed_creation_leaves_nothing_brokenList :
    (outcome ((SideOp.assign 1 0).act brokenList.vars) brokenList.session).1 = none ∧
    Restored brokenList.session.host (brokenList.step (.move (.assign 1 0))).session.host ∧
    (brokenList.step (.move (.assign 1 0))).vars = brokenList.vars := by
  obtain ⟨made, past⟩ := History.start.run [.newCollection, .hostArray (.numeric .int8) [2],
    .newCollection, .newCollection, .addNode 4 none (.integer 7), .addNode 3 none (.collection 4),
    .addNode 3 none (.tensor 99), .addNode 1 none (.tensor 2), .addNode 1 none (.collection 3)]
  have failed : (outcome ((SideOp.assign 1 0).act brokenList.vars) brokenList.session).1 = none := by
    decide
  have reached : History _ brokenList.session.host := past
  obtain ⟨hvars, -, hrestored, -⟩ := failed_creation_leaves_nothing reached (.assign 1 0) failed
  exact ⟨failed, hrestored, hvars⟩

end Marshal
