import Marshal.Proofs.Call.Cells
import Marshal.Proofs.Error.Registry
import Mathlib.Data.List.Induction

/-!
# `Proofs.Call.Slots` — what is read of a slot is what was written to it

The slots of a call that have storage of their own do not disturb each other, and none of them disturbs the
result. So whatever is done with the arguments, a slot holds what was last written to it, or what it held
when the call began, and the result holds what it was last set to. An operation that fails changes nothing.

Slots are read and written at their kinds. What a kind does to contents of another kind is no concern here.

## Contents

* `CallOp`, `CallOp.step`, `Call.run` — operations on the slots of a call, and runs of them;
* `CallOp.Proper` — the operations that are made for the slots;
* `CallOp.lastWritten`, `CallOp.lastSet`, `Call.Settled` — what a call holds after a run;
* `Call.ObeysLenses`, `slots_obey_lenses` — what is read and written after every run.
-/

namespace Marshal

open Marshal.Text

/-! ## Operations -/

/-- What is done with the slots of a call. A wrapper of a slot is made for one reading or writing. -/
inductive CallOp
  /-- Read the contents of an argument at a kind. -/
  | contents (kind : Kind) (index : Nat)
  /-- Read an argument as a value of a kind. -/
  | value (kind : Kind) (index : Nat)
  /-- Read an argument as a container. -/
  | adopt (kind : ContainerKind) (mode : Passing) (index : Nat)
  /-- Read an argument as a container, with an error of its own. -/
  | container (kind : ContainerKind) (mode : Passing) (index : Nat)
  /-- Read an argument through a wrapper. -/
  | unwrap (kind : Kind) (index : Nat)
  /-- Write an argument through a wrapper of the kind of what is written. -/
  | write (index : Nat) (p : Payload)
  /-- Set the result, to what a value or a container that is handed over comes to. -/
  | setResult (p : Payload)
  /-- Set the result to a text. -/
  | setText (text : String)
  deriving DecidableEq, Repr

/-- What an operation answers. -/
inductive CallAnswer
  | contents (p : Payload)
  | value (v : Value)
  | container (c : Container)
  | done
  deriving DecidableEq, Repr

namespace CallOp

/-- Carry out an operation. -/
def attempt (op : CallOp) (s : Session) (c : Call) : Except Fault (CallAnswer × Call) :=
  match op with
  | contents kind index => do return (.contents (← c.payload kind index), c)
  | value kind index => do return (.value (← c.value kind index), c)
  | adopt kind mode index => do return (.container (← c.adopt kind mode index), c)
  | container kind mode index => do return (.container (← c.container kind mode index s), c)
  | unwrap kind index => do return (.contents ((c.cell (← c.wrap kind index)).readAs kind), c)
  | write index p => do return (.done, c.setCell (← c.wrap p.kind index) p)
  | setResult p => return (.done, c.setResult p)
  | setText text => do return (.done, ← c.setText text)

/-- The answer or the error of an operation, and the call after it. -/
def step (op : CallOp) (s : Session) (c : Call) : Except Raised CallAnswer × Call :=
  match op.attempt s c with
  | .ok (answer, c) => (.ok answer, c)
  | .error fault => (.error (s.registry.errorOf fault), c)

/-- A direct reading of an argument: where, at which kind, and how it is answered with what is there. -/
structure Reading where
  kind : Kind
  index : Nat
  answer : Payload → CallAnswer

/-- The operations that read an argument directly. -/
def reading? : CallOp → Option Reading
  | contents kind index => some ⟨kind, index, .contents⟩
  | value kind index => some ⟨kind, index, fun p => .value p.value⟩
  | adopt kind mode index => some ⟨kind.kind, index, fun p => .container ⟨kind, mode, p.handle⟩⟩
  | container kind mode index => some ⟨kind.kind, index, fun p => .container ⟨kind, mode, p.handle⟩⟩
  | unwrap .. | write .. | setResult _ | setText _ => none

/-- How an operation raises an error of a reading. The readers of containers raise it again as one of their
own that shows it. -/
def rethrow (s : Session) (fault : Fault) : CallOp → Fault
  | container kind .. => .containerArgument kind (s.registry.errorOf fault).display
  | _ => fault

/-- The operations that wrap an argument, and the kind they wrap it at. -/
def wrapping? : CallOp → Option (Kind × Nat)
  | unwrap kind i => some (kind, i)
  | write i p => some (p.kind, i)
  | _ => none

/-- Whether an operation is made for the slots: it reads and writes at their kinds, no argument without
storage is read directly, and the result is set to what its slot can hold. Containers are left to the
host. -/
def Proper (count : Nat) (slots : List (Option Payload)) (result : Option Payload) : CallOp → Prop
  | contents kind i | value kind i => i < count → ∃ p, slots[i]? = some (some p) ∧ p.kind = kind
  | adopt kind mode i | container kind mode i =>
    mode.isHostOwned = true ∧ (i < count → ∃ p, slots[i]? = some (some p) ∧ p.kind = kind.kind)
  | unwrap kind i => i < count → ∀ p, slots[i]? = some (some p) → p.kind = kind
  | write i q => i < count → ∀ p, slots[i]? = some (some p) → q.kind = p.kind
  | setResult q => ∃ p, result = some p ∧ q.kind = p.kind
  | setText _ => ∃ p, result = some p ∧ p.kind = .text

/-! ## What came last -/

/-- What an operation writes to a slot. -/
def written? (count index : Nat) : CallOp → Option Payload
  | write i p => if i = index ∧ index < count then some p else none
  | _ => none

/-- What an operation sets the result to. -/
def set? : CallOp → Option Payload
  | setResult p => some p
  | setText text => if hasNul text then none else some (.text (some (bytesOf text)))
  | _ => none

/-- What was last written to a slot, or what it held before. -/
def lastWritten (count index : Nat) (history : List CallOp) (before : Payload) : Payload :=
  (history.filterMap (written? count index)).getLast?.getD before

/-- What the result was last set to, or what it was before. -/
def lastSet (history : List CallOp) (before : Payload) : Payload :=
  (history.filterMap set?).getLast?.getD before

end CallOp

/-- The last of the things found in a list decides. -/
theorem getLast?_filterMap_snoc {α β : Type} (f : α → Option β) (xs : List α) (x : α) (before : β) :
    ((xs ++ [x]).filterMap f).getLast?.getD before =
      (f x).getD ((xs.filterMap f).getLast?.getD before) := by
  rw [List.filterMap_append]
  cases h : f x with
  | none => rw [List.filterMap_cons_none h, List.filterMap_nil, List.append_nil, Option.getD_none]
  | some y =>
    rw [List.filterMap_cons_some h, List.filterMap_nil, List.getLast?_append]
    rfl

/-- The call after a run of operations, each in the session of its time. -/
def Call.run (c : Call) (history : List (Session × CallOp)) : Call :=
  history.foldl (fun c x => (x.2.step x.1 c).2) c

/-! ## One operation -/

namespace CallOp

variable {c : Call} {s : Session} {i : Nat} {p q : Payload}

theorem lastWritten_snoc (count i : Nat) (history : List CallOp) (op : CallOp) (before : Payload) :
    lastWritten count i (history ++ [op]) before =
      (op.written? count i).getD (lastWritten count i history before) :=
  getLast?_filterMap_snoc ..

theorem lastSet_snoc (history : List CallOp) (op : CallOp) (before : Payload) :
    lastSet (history ++ [op]) before = op.set?.getD (lastSet history before) :=
  getLast?_filterMap_snoc ..

/-- An operation that fails changes nothing. -/
theorem step_of_error {op : CallOp} {e : Raised} (h : (op.step s c).1 = .error e) :
    (op.step s c).2 = c := by
  unfold step at h ⊢
  cases hattempt : op.attempt s c with
  | error fault => rfl
  | ok done =>
    rw [hattempt] at h
    cases h

/-- **A direct reading as an equation.** -/
theorem step_of_reading {op : CallOp} {r : Reading} (reading : op.reading? = some r) :
    op.step s c =
      match c.payload r.kind r.index with
      | .ok p => (.ok (r.answer p), c)
      | .error fault => (.error (s.registry.errorOf (op.rethrow s fault)), c) := by
  cases op with
  | contents kind index =>
    cases reading
    rw [step, attempt]
    cases c.payload kind index <;> rfl
  | value kind index =>
    cases reading
    rw [step, attempt, Call.value]
    cases c.payload kind index <;> rfl
  | adopt kind mode index =>
    cases reading
    rw [step, attempt, Call.adopt]
    cases c.payload kind.kind index <;> rfl
  | container kind mode index =>
    cases reading
    rw [step, attempt, Call.container, Call.adopt]
    cases c.payload kind.kind index <;> rfl
  | unwrap | write | setResult | setText => cases reading

/-- Whoever reads directly is made for the kind of the slot. -/
theorem Proper.reads {op : CallOp} {r : Reading} {count : Nat} {slots : List (Option Payload)}
    {result : Option Payload} (proper : op.Proper count slots result)
    (reading : op.reading? = some r) (below : r.index < count) :
    ∃ p, slots[r.index]? = some (some p) ∧ p.kind = r.kind := by
  cases op with
  | contents kind index | value kind index =>
    cases reading
    exact proper below
  | adopt kind mode index | container kind mode index =>
    cases reading
    exact proper.2 below
  | unwrap | write | setResult | setText => cases reading

/-- Whoever reads directly leaves the call alone. -/
theorem step_call_of_reading {op : CallOp} {r : Reading} (reading : op.reading? = some r) :
    (op.step s c).2 = c := by
  rw [step_of_reading reading]
  cases c.payload r.kind r.index <;> rfl

theorem step_unwrap {kind : Kind} {n : Nat} (hwrap : c.wrap kind i = .ok n) :
    (unwrap kind i).step s c = (.ok (.contents ((c.cell n).readAs kind)), c) := by
  rw [step, attempt, hwrap]
  rfl

theorem step_write {n : Nat} (hwrap : c.wrap q.kind i = .ok n) :
    (write i q).step s c = (.ok .done, c.setCell n q) := by
  rw [step, attempt, hwrap]
  rfl

/-- Without a wrapper nothing is done. -/
theorem step_of_wrapping {op : CallOp} {kind : Kind} {fault : Fault}
    (wrapping : op.wrapping? = some (kind, i)) (hwrap : c.wrap kind i = .error fault) :
    op.step s c = (.error (s.registry.errorOf fault), c) := by
  cases op with
  | unwrap kind i | write i q =>
    cases wrapping
    rw [step, attempt, hwrap]
    rfl
  | _ => cases wrapping

theorem written?_eq_some_iff {op : CallOp} {count : Nat} :
    op.written? count i = some q ↔ op = write i q ∧ i < count := by
  cases op with
  | write j p =>
    rw [written?]
    constructor
    · intro h
      split at h
      · next here =>
        cases h
        obtain ⟨rfl, below⟩ := here
        exact ⟨rfl, below⟩
      · cases h
    · rintro ⟨same, below⟩
      cases same
      exact if_pos ⟨rfl, below⟩
  | _ => exact ⟨nofun, fun h => nomatch h.1⟩

/-- What is set fits the result. -/
theorem Proper.set {op : CallOp} {count : Nat} {slots : List (Option Payload)} {result : Option Payload}
    (proper : op.Proper count slots result) (set : op.set? = some q) :
    ∃ p, result = some p ∧ q.kind = p.kind := by
  cases op with
  | setResult p =>
    cases set
    exact proper
  | setText text =>
    obtain ⟨p, hp, fits⟩ := proper
    rw [set?] at set
    split at set
    · cases set
    · cases set
      exact ⟨p, hp, fits.symm⟩
  | _ => cases set

/-- **Setting the result** to what its slot can hold. -/
theorem step_of_set {op : CallOp} (set : op.set? = some q) (hresult : c.result = some p)
    (fits : q.kind = p.kind) : op.step s c = (.ok .done, { c with result := some q }) := by
  have hset : c.setResult q = { c with result := some q } := by
    rw [Call.setResult, hresult, Option.map_some, ← fits, Payload.readAs_kind]
  cases op with
  | setResult p =>
    cases set
    rw [← hset]
    rfl
  | setText text =>
    rw [set?] at set
    split at set
    · cases set
    · next hnul =>
      cases set
      rw [step, attempt, Call.setText, if_neg hnul, hset]
      rfl
  | _ => cases set

theorem step_setText_of_nul {text : String} (h : hasNul text = true) :
    (setText text).step s c = (.error (s.registry.errorOf .resultText), c) := by
  rw [step, attempt, Call.setText, if_pos h]
  rfl

end CallOp

/-! ## What a call holds after a run -/

/-- **What a call holds** after operations: in each slot what was last written there, and in the result what
it was last set to. -/
structure Call.Settled (count : Nat) (slots : List (Option Payload)) (result : Option Payload)
    (history : List CallOp) (c : Call) : Prop where
  count_eq : c.count = count
  contents_eq : c.contents =
    slots.mapIdx fun i slot => slot.map (CallOp.lastWritten count i history)
  result_eq : c.result = result.map (CallOp.lastSet history)
  parted : c.Parted

section Run

variable {count : Nat} {slots : List (Option Payload)} {result : Option Payload}
  {history : List CallOp} {c : Call}

/-- What is written to a slot has its kind. -/
theorem CallOp.kind_lastWritten (proper : ∀ op ∈ history, op.Proper count slots result) {i : Nat}
    {p : Payload} (hslot : slots[i]? = some (some p)) :
    (lastWritten count i history p).kind = p.kind := by
  induction history using List.reverseRecOn with
  | nil => rfl
  | append_singleton before op ih =>
    rw [lastWritten_snoc]
    cases hwritten : op.written? count i with
    | none => exact ih fun op h => proper op (List.mem_append_left _ h)
    | some q =>
      obtain ⟨rfl, below⟩ := written?_eq_some_iff.mp hwritten
      exact proper (.write i q) (by simp) below p hslot

/-- What the result is set to has its kind. -/
theorem CallOp.kind_lastSet (proper : ∀ op ∈ history, op.Proper count slots result) {p : Payload}
    (hresult : result = some p) : (lastSet history p).kind = p.kind := by
  induction history using List.reverseRecOn with
  | nil => rfl
  | append_singleton before op ih =>
    rw [lastSet_snoc]
    cases hset : op.set? with
    | none => exact ih fun op h => proper op (List.mem_append_left _ h)
    | some q =>
      obtain ⟨p', hp', fits⟩ := (proper op (by simp)).set hset
      obtain rfl : p = p' := Option.some.inj (hresult.symm.trans hp')
      exact fits

namespace Call.Settled

/-- What a slot holds after the run. -/
theorem holds (h : c.Settled count slots result history) {i : Nat} {p : Payload}
    (hslot : slots[i]? = some (some p)) :
    c.contents[i]? = some (some (CallOp.lastWritten count i history p)) := by
  rw [h.contents_eq, List.getElem?_mapIdx, hslot]
  rfl

theorem missing (h : c.Settled count slots result history) {i : Nat}
    (hslot : slots[i]? = some none) : c.contents[i]? = some none := by
  rw [h.contents_eq, List.getElem?_mapIdx, hslot]
  rfl

/-- An argument with storage can be wrapped, and its cell holds what was last written to it. -/
theorem wrapped (h : c.Settled count slots result history)
    (earlier : ∀ op ∈ history, op.Proper count slots result) {i : Nat} {p : Payload} (below : i < count)
    (hslot : slots[i]? = some (some p)) :
    ∃ n, c.slots[i]? = some (some n) ∧ (∀ kind, c.wrap kind i = .ok n) ∧
      c.cell n = CallOp.lastWritten count i history p ∧ (c.cell n).kind = p.kind := by
  obtain ⟨n, hplace, hwrap, hcell⟩ := Call.wrap_of_contents (h.count_eq ▸ below) (h.holds hslot)
  exact ⟨n, hplace, hwrap, hcell, hcell ▸ CallOp.kind_lastWritten earlier hslot⟩

/-- The result is set as its slot can hold it. -/
theorem step_of_set (h : c.Settled count slots result history)
    (earlier : ∀ op ∈ history, op.Proper count slots result) {op : CallOp} {q : Payload}
    (proper : op.Proper count slots result) (set : op.set? = some q) (s : Session) :
    op.step s c = (.ok .done, { c with result := some q }) := by
  obtain ⟨p, hp, fits⟩ := proper.set set
  have hresult : c.result = some (CallOp.lastSet history p) := by
    rw [h.result_eq, hp]
    rfl
  exact CallOp.step_of_set set hresult (fits.trans (CallOp.kind_lastSet earlier hp).symm)

/-- What writes to no slot leaves the slots. -/
theorem contents_snoc (h : c.Settled count slots result history) {op : CallOp}
    (unwritten : ∀ i p, slots[i]? = some (some p) → op.written? count i = none) :
    c.contents = slots.mapIdx fun i slot =>
      slot.map (CallOp.lastWritten count i (history ++ [op])) := by
  rw [h.contents_eq]
  refine List.ext_getElem? fun i => ?_
  rw [List.getElem?_mapIdx, List.getElem?_mapIdx]
  cases hslot : slots[i]? with
  | none => rfl
  | some slot =>
    cases slot with
    | none => rfl
    | some p =>
      show some (some _) = some (some _)
      rw [CallOp.lastWritten_snoc, unwritten i p hslot, Option.getD_none]

/-- What does not set the result leaves it. -/
theorem result_snoc (h : c.Settled count slots result history) {op : CallOp} (unset : op.set? = none) :
    c.result = result.map (CallOp.lastSet (history ++ [op])) := by
  rw [h.result_eq]
  refine congrArg (result.map ·) (funext fun p => ?_)
  rw [CallOp.lastSet_snoc, unset, Option.getD_none]

/-- What neither writes to a slot nor sets the result. -/
theorem snoc_quiet (h : c.Settled count slots result history) {op : CallOp}
    (unwritten : ∀ i p, slots[i]? = some (some p) → op.written? count i = none)
    (unset : op.set? = none) : c.Settled count slots result (history ++ [op]) :=
  ⟨h.count_eq, h.contents_snoc unwritten, h.result_snoc unset, h.parted⟩

/-- What is written to a slot replaces what the slot holds. -/
theorem snoc_write (h : c.Settled count slots result history) {i n : Nat} {p q : Payload}
    (below : i < count) (hslot : slots[i]? = some (some p)) (hplace : c.slots[i]? = some (some n))
    (fits : q.kind = (c.cell n).kind) :
    (c.setCell n q).Settled count slots result (history ++ [.write i q]) where
  count_eq := h.count_eq
  contents_eq := by
    rw [(Call.setCell_spec h.parted hplace q fits).1, h.contents_eq]
    refine List.ext_getElem? fun j => ?_
    rw [List.getElem?_set, List.getElem?_mapIdx, List.getElem?_mapIdx, List.length_mapIdx]
    by_cases hj : i = j
    · subst hj
      rw [if_pos rfl, if_pos (List.getElem?_eq_some_iff.mp hslot).1, hslot]
      show some (some q) = some (some _)
      rw [CallOp.lastWritten_snoc, CallOp.written?, if_pos ⟨rfl, below⟩, Option.getD_some]
    · have hother : CallOp.lastWritten count j (history ++ [.write i q]) =
          CallOp.lastWritten count j history := by
        funext before
        rw [CallOp.lastWritten_snoc, CallOp.written?, if_neg fun here => hj here.1, Option.getD_none]
      rw [if_neg hj, hother]
  result_eq := h.result_snoc rfl
  parted := (Call.setCell_spec h.parted hplace q fits).2

/-- What the result is set to replaces it. -/
theorem snoc_set (h : c.Settled count slots result history) {op : CallOp} {p q : Payload}
    (hresult : result = some p) (set : op.set? = some q) :
    ({ c with result := some q } : Call).Settled count slots result (history ++ [op]) where
  count_eq := h.count_eq
  contents_eq := by
    refine h.contents_snoc fun i _ _ => ?_
    cases op with
    | write => cases set
    | _ => rfl
  result_eq := by
    subst hresult
    show some q = some _
    rw [CallOp.lastSet_snoc, set, Option.getD_some]
  parted := ⟨h.parted.present, h.parted.apart⟩

/-- **One operation** keeps what a call holds. -/
theorem step (h : c.Settled count slots result history) (stored : count ≤ slots.length)
    (earlier : ∀ op ∈ history, op.Proper count slots result) {op : CallOp}
    (proper : op.Proper count slots result) (s : Session) :
    (op.step s c).2.Settled count slots result (history ++ [op]) := by
  have untouched : (op.step s c).2 = c →
      (∀ i p, slots[i]? = some (some p) → op.written? count i = none) → op.set? = none →
      (op.step s c).2.Settled count slots result (history ++ [op]) := by
    intro same unwritten unset
    rw [same]
    exact h.snoc_quiet unwritten unset
  -- Only what sets the result and what writes to a slot can change anything.
  cases hset : op.set? with
  | some q =>
    obtain ⟨p, hp, -⟩ := proper.set hset
    rw [h.step_of_set earlier proper hset]
    exact h.snoc_set hp hset
  | none =>
    cases op with
    | contents | value | adopt | container =>
      exact untouched (CallOp.step_call_of_reading rfl) (fun _ _ _ => rfl) rfl
    | unwrap kind i =>
      refine untouched ?_ (fun _ _ _ => rfl) rfl
      rw [CallOp.step, CallOp.attempt]
      cases c.wrap kind i <;> rfl
    | write i q =>
      -- Whatever keeps the slot from being wrapped keeps the operation from counting as a write.
      have refused : ∀ fault, c.wrap q.kind i = .error fault →
          ¬ (i < count ∧ ∃ p, slots[i]? = some (some p)) →
          ((CallOp.write i q).step s c).2.Settled count slots result (history ++ [.write i q]) := by
        intro fault hwrap unheld
        refine untouched (congrArg (·.2) (CallOp.step_of_wrapping rfl hwrap)) (fun j p hp => ?_) rfl
        refine if_neg ?_
        rintro ⟨rfl, below⟩
        exact unheld ⟨below, p, hp⟩
      by_cases below : i < count
      · have hlt : i < slots.length := Nat.lt_of_lt_of_le below stored
        cases hslot : slots[i]? with
        | none => exact absurd (List.getElem?_eq_none_iff.mp hslot) (Nat.not_le.mpr hlt)
        | some slot =>
          cases slot with
          | none =>
            refine refused _ (Call.wrap_of_no_contents (h.count_eq ▸ below) (h.missing hslot) q.kind) ?_
            rintro ⟨-, p, hp⟩
            cases hslot.symm.trans hp
          | some p =>
            obtain ⟨n, hplace, hwrap, -, hkind⟩ := h.wrapped earlier below hslot
            rw [CallOp.step_write (hwrap q.kind)]
            exact h.snoc_write below hslot hplace ((proper below p hslot).trans hkind.symm)
      · refine refused _ (Call.wrap_of_le (h.count_eq ▸ Nat.not_lt.mp below) q.kind) ?_
        exact fun held => below held.1
    | setResult q => cases hset
    | setText text =>
      have hnul : hasNul text = true := by
        by_contra hnul
        rw [CallOp.set?, if_neg hnul] at hset
        cases hset
      exact untouched (congrArg (·.2) (CallOp.step_setText_of_nul hnul)) (fun _ _ _ => rfl) hset

/-- **A run** keeps what a call holds. -/
theorem run (h : c.Settled count slots result []) (stored : count ≤ slots.length)
    (history : List (Session × CallOp)) (proper : ∀ x ∈ history, x.2.Proper count slots result) :
    (c.run history).Settled count slots result (history.map (·.2)) := by
  induction history using List.reverseRecOn with
  | nil => exact h
  | append_singleton before x ih =>
    have earlier : ∀ y ∈ before, y.2.Proper count slots result := fun y hy =>
      proper y (List.mem_append_left _ hy)
    rw [Call.run, List.foldl_append, List.map_append]
    refine (ih earlier).step stored ?_ (proper x (by simp)) x.1
    intro op hop
    obtain ⟨y, hy, rfl⟩ := List.mem_map.mp hop
    exact earlier y hy

end Call.Settled

end Run

/-! ## Every run -/

/-- The error of the reader of a container. -/
def ContainerKind.argumentError : ContainerKind → String
  | .tensor => "ArgumentTensorError"
  | .numericArray => "ArgumentNumericArrayError"
  | .collection => "ArgumentDataListError"

/-- The error that a direct reading beyond the arguments ends in: the one of the index, or one that shows
it. -/
def CallOp.MissesWith (op : CallOp) (original e : Raised) : Prop :=
  match op with
  | container kind .. => e.kind.name = kind.argumentError ∧ e.detail = original.display
  | _ => e = original

/-- **What is read and written** after some operations on a call for some slots, in any session at all. The
errors have their names whatever kinds have been registered. -/
structure Call.ObeysLenses (count : Nat) (slots : List (Option Payload)) (result : Option Payload)
    (history : List CallOp) (c : Call) : Prop where
  /-- Each slot holds what was last written to it, the result what it was last set to. -/
  holds : c.contents = (slots.mapIdx fun i slot => slot.map (CallOp.lastWritten count i history)) ∧
    c.result = result.map (CallOp.lastSet history)
  /-- A direct reading is answered with what the slot holds. -/
  reads : ∀ s (op : CallOp) r, op.reading? = some r → op.Proper count slots result → r.index < count →
    ∃ p, slots[r.index]? = some (some p) ∧
      op.step s c = (.ok (r.answer (CallOp.lastWritten count r.index history p)), c)
  /-- It fails beyond the arguments. -/
  misses : ∀ calls s (op : CallOp) r, s.registry = Registry.seeded.run calls →
    op.reading? = some r → count ≤ r.index →
    ∃ original e, op.step s c = (.error e, c) ∧ original.kind.name = "ArgumentIndexError" ∧
      original.detail =
        "index " ++ toString r.index ++ " out of range [0, " ++ toString count ++ ")" ∧
      op.MissesWith original e
  /-- A container that is read is never released by who has read it. -/
  leaves : ∀ (op : CallOp) r p k, op.Proper count slots result → op.reading? = some r →
    r.answer p = .container k → ∀ s, k.release s = .ok () s
  /-- A wrapper reads what the slot holds. -/
  unwraps : ∀ s i p, i < count → slots[i]? = some (some p) →
    (CallOp.unwrap p.kind i).step s c = (.ok (.contents (CallOp.lastWritten count i history p)), c)
  /-- A wrapper writes to its slot and to nothing else. -/
  writes : ∀ s i p (q : Payload), i < count → slots[i]? = some (some p) → q.kind = p.kind →
    ∃ after, (CallOp.write i q).step s c = (.ok .done, after) ∧
      after.contents = c.contents.set i (some q) ∧ after.result = c.result ∧ after.count = c.count
  /-- Without storage there is no wrapper. -/
  refuses : ∀ calls s (op : CallOp) kind i, s.registry = Registry.seeded.run calls →
    op.wrapping? = some (kind, i) → i < count → slots[i]? = some none →
    ∃ e, op.step s c = (.error e, c) ∧ e.kind.name = "ArgumentCreateNull" ∧
      e.detail = kind.name ++ " slot"
  /-- There is none beyond the arguments either. -/
  wrapsNone : ∀ calls s (op : CallOp) kind i, s.registry = Registry.seeded.run calls →
    op.wrapping? = some (kind, i) → count ≤ i →
    ∃ e, op.step s c = (.error e, c) ∧ e.kind.name = "ArgumentIndexError" ∧
      e.detail = "index " ++ toString i ++ " out of range [0, " ++ toString count ++ ")"
  /-- Setting the result changes the result and nothing else. -/
  sets : ∀ s (op : CallOp) q, op.Proper count slots result → op.set? = some q →
    ∃ after, op.step s c = (.ok .done, after) ∧
      after.result = some q ∧ after.contents = c.contents ∧ after.count = c.count
  /-- No text with a NUL in it becomes the result. -/
  refusesNul : ∀ calls s text, s.registry = Registry.seeded.run calls → hasNul text = true →
    ∃ e, (CallOp.setText text).step s c = (.error e, c) ∧ e.kind.name = "TypeError" ∧
      e.detail = "string result contains NUL"
  /-- An operation that fails changes nothing. -/
  fails : ∀ s (op : CallOp) e, (op.step s c).1 = .error e → (op.step s c).2 = c

section Obeying

variable {count : Nat} {slots : List (Option Payload)} {result : Option Payload}
  {history : List CallOp} {c : Call}

/-- The name of a failure in a session with any kinds of errors. -/
theorem Session.name_errorOf {s : Session} {calls : List Registration}
    (registered : s.registry = Registry.seeded.run calls) (fault : Fault) :
    (s.registry.errorOf fault).kind.name = fault.builtin.name := by
  rw [registered]
  exact (Registry.Grown.run calls).name_errorOf fault

/-- What the host owns is not released. -/
theorem Container.release_of_isHostOwned {k : Container} (owned : k.mode.isHostOwned = true)
    (s : Session) : k.release s = .ok () s := by
  obtain ⟨kind, mode, h⟩ := k
  unfold Container.release Act.releaseHandle
  dsimp only
  split
  · rfl
  · cases mode with
    | automatic | constant => rfl
    | manual | shared => cases owned

/-- A container that is read directly is left to the host. -/
theorem CallOp.Proper.isHostOwned {op : CallOp} {r : CallOp.Reading} {p : Payload} {k : Container}
    (proper : op.Proper count slots result) (reading : op.reading? = some r)
    (answered : r.answer p = .container k) : k.mode.isHostOwned = true := by
  cases op with
  | adopt | container =>
    cases reading
    cases answered
    exact proper.1
  | contents | value =>
    cases reading
    cases answered
  | unwrap | write | setResult | setText => cases reading

/-- **What is read and written** follows from what the call holds. -/
theorem Call.Settled.obeysLenses (h : c.Settled count slots result history)
    (earlier : ∀ op ∈ history, op.Proper count slots result) :
    c.ObeysLenses count slots result history where
  holds := ⟨h.contents_eq, h.result_eq⟩
  reads := by
    intro s op r reading proper below
    obtain ⟨p, hslot, hkind⟩ := proper.reads reading below
    refine ⟨p, hslot, ?_⟩
    have hread := Call.payload_of_contents (h.count_eq ▸ below) (h.holds hslot)
    rw [CallOp.kind_lastWritten earlier hslot, hkind] at hread
    rw [CallOp.step_of_reading reading, hread]
  misses := by
    intro calls s op r registered reading beyond
    have hread := Call.payload_of_le (h.count_eq ▸ beyond) r.kind
    rw [h.count_eq] at hread
    refine ⟨s.registry.errorOf (.argumentIndex r.index count),
      s.registry.errorOf (op.rethrow s (.argumentIndex r.index count)), ?_,
      Session.name_errorOf registered _, rfl, ?_⟩
    · rw [CallOp.step_of_reading reading, hread]
    · cases op with
      | container kind mode i =>
        refine ⟨?_, rfl⟩
        rw [Session.name_errorOf registered]
        cases kind <;> rfl
      | _ => rfl
  leaves := fun op r p k proper reading answered =>
    Container.release_of_isHostOwned (proper.isHostOwned reading answered)
  unwraps := by
    intro s i p below hslot
    obtain ⟨n, -, hwrap, hcell, hkind⟩ := h.wrapped earlier below hslot
    rw [CallOp.step_unwrap (hwrap p.kind), ← hkind, Payload.readAs_kind, hcell]
  writes := by
    intro s i p q below hslot fits
    obtain ⟨n, hplace, hwrap, -, hkind⟩ := h.wrapped earlier below hslot
    have written := Call.setCell_spec h.parted hplace q (fits.trans hkind.symm)
    exact ⟨c.setCell n q, CallOp.step_write (hwrap q.kind), written.1, rfl, rfl⟩
  refuses := by
    intro calls s op kind i registered wrapping below hslot
    have hwrap := Call.wrap_of_no_contents (h.count_eq ▸ below) (h.missing hslot)
    refine ⟨s.registry.errorOf (.nullSlot kind), ?_, Session.name_errorOf registered _, rfl⟩
    exact CallOp.step_of_wrapping wrapping (hwrap kind)
  wrapsNone := by
    intro calls s op kind i registered wrapping beyond
    have hwrap := Call.wrap_of_le (h.count_eq ▸ beyond)
    rw [h.count_eq] at hwrap
    refine ⟨s.registry.errorOf (.argumentIndex i count), ?_, Session.name_errorOf registered _, rfl⟩
    exact CallOp.step_of_wrapping wrapping (hwrap kind)
  sets := fun s op q proper set => ⟨_, h.step_of_set earlier proper set s, rfl, rfl, rfl⟩
  refusesNul := by
    intro calls s text registered hnul
    exact ⟨_, CallOp.step_setText_of_nul hnul, Session.name_errorOf registered _, rfl⟩
  fails := fun s op e => CallOp.step_of_error

end Obeying

/-- **The slots of a call obey the laws of lenses.** A call with storage of its own for each slot that is
not empty can be made. Whatever is done with the slots then, at their kinds and in any sessions, each
reading is answered with what was last written to the slot, or with what it held at the beginning, and
fails exactly beyond the arguments; each writing changes its slot and nothing else; and what fails changes
nothing. -/
theorem slots_obey_lenses (count : Nat) (handedOver : Bool) (slots : List (Option Payload))
    (result : Option Payload) (stored : count ≤ slots.length) (handed : 0 < count → handedOver = true) :
    ∃ c, Call.create count handedOver slots result = .ok c ∧
      ∀ history : List (Session × CallOp), (∀ x ∈ history, x.2.Proper count slots result) →
        (c.run history).ObeysLenses count slots result (history.map (·.2)) := by
  obtain ⟨c, hcreate, hcount, hcontents, hresult, parted⟩ := Call.create_spec result stored handed
  refine ⟨c, hcreate, fun history proper => ?_⟩
  have start : c.Settled count slots result [] := by
    refine ⟨hcount, ?_, ?_, parted⟩
    · rw [hcontents]
      refine List.ext_getElem? fun i => ?_
      rw [List.getElem?_mapIdx]
      rcases slots[i]? with _ | _ | p <;> rfl
    · rw [hresult]
      cases result <;> rfl
  refine (start.run stored history proper).obeysLenses ?_
  intro op hop
  obtain ⟨x, hx, rfl⟩ := List.mem_map.mp hop
  exact proper x hx

/-- Slots of which the host keeps one to itself. -/
def mixedSlots : List (Option Payload) :=
  [some (.integer 5), some (.text (some [104, 105])), none, some (.collection 3)]

/-- Operations of which all but the first two fail. -/
def mixedHistory : List (Session × CallOp) :=
  [({}, .write 0 (.integer 7)), ({}, .setText "ok"), ({}, .write 2 (.integer 8)),
    ({}, .write 3 (.collection 9)), ({}, .setText (String.singleton (Char.ofNat 0)))]

/-- An argument that has been written to, one that has not, the result, and two failures. -/
theorem slots_obey_lenses_mixed :
    ∃ c, Call.create 3 true mixedSlots (some (.text none)) = .ok c ∧
      (CallOp.value .integer 0).step {} (c.run mixedHistory) =
        (.ok (.value (.integer 7)), c.run mixedHistory) ∧
      (CallOp.contents .text 1).step {} (c.run mixedHistory) =
        (.ok (.contents (.text (some [104, 105]))), c.run mixedHistory) ∧
      (c.run mixedHistory).result = some (.text (some (bytesOf "ok"))) ∧
      (∃ e, (CallOp.unwrap .real 2).step {} (c.run mixedHistory) = (.error e, c.run mixedHistory) ∧
        e.kind.name = "ArgumentCreateNull" ∧ e.detail = "Real slot") ∧
      ∃ e, (CallOp.container .collection .automatic 3).step {} (c.run mixedHistory) =
        (.error e, c.run mixedHistory) ∧ e.kind.name = "ArgumentDataListError" := by
  obtain ⟨c, hcreate, hobeys⟩ :=
    slots_obey_lenses 3 true mixedSlots (some (.text none)) (by decide) (fun _ => rfl)
  have obeys := hobeys mixedHistory (by simp [mixedHistory, CallOp.Proper, mixedSlots, Payload.kind])
  refine ⟨c, hcreate, ?_, ?_, obeys.holds.2.trans (by decide), ?_, ?_⟩
  · obtain ⟨p, hp, hstep⟩ := obeys.reads {} (.value .integer 0) _ rfl
      (fun _ => ⟨.integer 5, rfl, rfl⟩) (by decide)
    cases hp
    exact hstep
  · obtain ⟨p, hp, hstep⟩ := obeys.reads {} (.contents .text 1) _ rfl
      (fun _ => ⟨.text (some [104, 105]), rfl, rfl⟩) (by decide)
    cases hp
    exact hstep
  · exact obeys.refuses [] {} (.unwrap .real 2) .real 2 rfl rfl (by decide) rfl
  · obtain ⟨original, e, hstep, -, -, hkind, -⟩ :=
      obeys.misses [] {} (.container .collection .automatic 3) _ rfl rfl (by decide)
    exact ⟨e, hstep, hkind⟩

end Marshal
