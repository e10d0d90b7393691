import Marshal.Proofs.Container.Access
import Marshal.Proofs.Host.Origins

/-!
# `Proofs.Container.TypedAccess` — elements under a type

Nothing about a handle says what it names, and a container of either kind can be made of any handle.
Between a reader and the bytes of another type stand three answers that the host gives separately: the
number of the element type, the number of elements, and the storage. Each family numbers its own types,
and both use the numbers two to four. A reader of numeric arrays is told of no other arrays, and then
gets the storage of any. A reader of tensors is told the number of any array, and then gets the storage
of no array but a tensor of the type that it asks for.

Together the answers keep the types apart. They do not agree on what there is to see, though. An array of
unsigned bytes is reported as a tensor of integers, and unless it is empty it cannot be read as one.

## Contents

* `Session.Reports`, `ElementType.PosesAs` — types that are reported, and types that are taken for them;
* `Session.reports_iff`, `Container.elements_eq_ok` — what is reported, and what is read;
* `Session.TypedSlice`, `typed_access` — what is read under a type are all elements of an array of that
  type;
* `reported_type_predicts`, `reported_unreadable` — what is reported can be read, but for arrays that
  pose as tensors.
-/

namespace Marshal

open Marshal.Host

/-! ## Reported types -/

/-- The host reports an element type for a handle, which is taken for one of the type's family. -/
def Session.Reports (s : Session) (type : ElementType) (h : Handle) : Prop :=
  match type with
  | .tensor t => s.tensorType? h = some t
  | .numeric t => s.numericType h = t

instance (s : Session) (type : ElementType) (h : Handle) : Decidable (s.Reports type h) :=
  match type with
  | .tensor t => inferInstanceAs (Decidable (s.tensorType? h = some t))
  | .numeric t => inferInstanceAs (Decidable (s.numericType h = t))

/-- **A type poses as another one**: it is one of numeric arrays, and its number is that of the other
among the types of tensors. -/
structure ElementType.PosesAs (own type : ElementType) : Prop where
  numeric : own.family = .numericArray
  tensor : type.family = .tensor
  code : own.code = type.code

/-- No type poses as itself. -/
theorem ElementType.not_posesAs_self (type : ElementType) : ¬ type.PosesAs type := by
  intro posing
  cases posing.numeric.symm.trans posing.tensor

theorem TensorType.ofCode?_eq_some {n : Int} {t : TensorType} :
    TensorType.ofCode? n = some t ↔ n = t.code := by
  constructor
  · intro found
    have hcode := List.find?_some (p := fun t : TensorType => t.code == n) found
    exact (beq_iff_eq.mp hcode).symm
  · rintro rfl
    exact ofCode?_code t

namespace Session

variable {s : Session} {type : ElementType} {h : Handle} {a : Dense}

theorem checkType_eq_ok : s.checkType type h = .ok () ↔ s.Reports type h := by
  cases type <;> simp only [checkType, Reports, ite_eq_left_iff, reduceCtorEq, imp_false, not_not]

/-- A live array is reported as a tensor by its number, whatever its family. -/
theorem tensorType?_of_live (attached : s.attached = true) (live : s.host.arrays.get? h = some a) :
    s.tensorType? h = TensorType.ofCode? a.type.code := by
  rw [tensorType?, ask, if_pos attached, elementCode, live]

theorem numericType_of_live (attached : s.attached = true) (live : s.host.arrays.get? h = some a) :
    s.numericType h = match a.type with
      | .tensor _ => .undefined
      | .numeric n => n := by
  rw [numericType, ask, if_pos attached, elementCode, live]
  dsimp only
  cases htype : a.type with
  | tensor t => rfl
  | numeric n => exact congrArg (·.getD .undefined) (NumericType.ofCode?_code n)

/-- What is not a live array has no type that elements can have. -/
theorem not_reports_of_dead (attached : s.attached = true) (dead : s.host.arrays.get? h = none)
    (defined : type ≠ .numeric .undefined) : ¬ s.Reports type h := by
  cases type with
  | tensor t =>
    have hfound : s.tensorType? h = none := by
      rw [tensorType?, ask, if_pos attached, elementCode, dead]
      rfl
    exact fun reports : s.tensorType? h = some t => Option.some_ne_none t (reports.symm.trans hfound)
  | numeric t =>
    have hfound : s.numericType h = .undefined := by
      rw [numericType, ask, if_pos attached, elementCode, dead]
      rfl
    exact fun reports : s.numericType h = t => defined (by rw [← reports, hfound])

/-- **What is reported of a live array**: its own type, and a type that it poses as. -/
theorem reports_iff (attached : s.attached = true) (live : s.host.arrays.get? h = some a)
    (defined : type ≠ .numeric .undefined) :
    s.Reports type h ↔ a.type = type ∨ a.type.PosesAs type := by
  cases type with
  | tensor t =>
    rw [Reports, tensorType?_of_live attached live, TensorType.ofCode?_eq_some]
    cases htype : a.type with
    | tensor u =>
      constructor
      · intro hcode
        have hsame := (TensorType.ofCode?_code u).symm.trans (TensorType.ofCode?_eq_some.mpr hcode)
        exact .inl (congrArg _ (Option.some.inj hsame))
      · rintro (hsame | posing)
        · exact congrArg ElementType.code hsame
        · exact posing.code
    | numeric n =>
      constructor
      · exact fun hcode => .inr ⟨rfl, rfl, hcode⟩
      · rintro (hsame | posing)
        · cases hsame
        · exact posing.code
  | numeric t =>
    rw [Reports, numericType_of_live attached live]
    constructor
    · intro hreported
      cases htype : a.type with
      | tensor u =>
        rw [htype] at hreported
        exact absurd (congrArg _ hreported.symm) defined
      | numeric n =>
        rw [htype] at hreported
        exact .inl (congrArg _ hreported)
    · rintro (hsame | posing)
      · rw [hsame]
      · cases posing.tensor

end Session

/-! ## What is read -/

namespace Container

variable {c : Container} {type : ElementType} {s : Session} {a : Dense} {values : List Scalar}

/-- What is read from is not empty, and it is reported to have the type. -/
theorem reported_of_elements (found : c.elements type s = .ok values) :
    c.handle ≠ Handle.null ∧ s.Reports type c.handle := by
  unfold Container.elements at found
  by_cases hempty : c.isEmpty = true
  · rw [if_pos hempty] at found
    cases found
  · rw [if_neg hempty] at found
    cases hcheck : s.checkType type c.handle with
    | error fault =>
      rw [hcheck] at found
      cases found
    | ok _ => exact ⟨by simpa [isEmpty] using hempty, Session.checkType_eq_ok.mp hcheck⟩

/-- Without a table nothing is read. -/
theorem attached_of_elements (defined : type ≠ .numeric .undefined)
    (found : c.elements type s = .ok values) : s.attached = true := by
  by_contra detached
  obtain ⟨fault, refused⟩ :=
    Session.elements_of_detached (Bool.eq_false_iff.mpr detached) defined c
  rw [refused] at found
  cases found

/-- An array that poses as a tensor shows no storage, which is in order only if there is none. -/
theorem elements_of_posing (attached : s.attached = true) (hnull : c.handle ≠ Handle.null)
    (live : s.host.arrays.get? c.handle = some a) (posing : a.type.PosesAs type) :
    c.elements type s = if 0 < a.length then .error (.noArrayData .tensor) else .ok [] := by
  obtain ⟨t, rfl⟩ : ∃ t, type = .tensor t := by
    cases type with
    | tensor t => exact ⟨t, rfl⟩
    | numeric t => cases posing.tensor
  have defined : ElementType.tensor t ≠ .numeric .undefined := ElementType.noConfusion
  have other : a.type ≠ .tensor t := fun hsame =>
    ElementType.not_posesAs_self _ (hsame ▸ posing : (ElementType.tensor t).PosesAs _)
  have hempty : c.isEmpty = false := by simpa [isEmpty] using hnull
  have hcheck : s.checkType (.tensor t) c.handle = .ok () :=
    Session.checkType_eq_ok.mpr ((Session.reports_iff attached live defined).mpr (.inr posing))
  have hdata : s.ask none (·.dataAs? (.tensor t) c.handle) = none := by
    rw [Session.ask, if_pos attached, dataAs?, live]
    exact if_neg other
  have hlength : s.length c.handle = a.length := by
    rw [Session.length, Session.ask, if_pos attached, Host.length, live]
    rfl
  unfold Container.elements
  rw [hempty, hcheck, hdata, hlength, if_neg Bool.false_ne_true]
  dsimp only [bind, Except.bind]
  by_cases hsome : 0 < a.length
  · rw [if_pos hsome, if_pos (Int.natCast_pos.mpr hsome)]
    rfl
  · rw [if_neg hsome, if_neg (mt Int.natCast_pos.mp hsome)]
    rfl

/-- **What can be read under a type**: the elements of a live array of that type, and nothing of an empty
array that poses as one. -/
theorem elements_eq_ok (attached : s.attached = true) (defined : type ≠ .numeric .undefined) :
    c.elements type s = .ok values ↔ c.handle ≠ Handle.null ∧
      ∃ a, s.host.arrays.get? c.handle = some a ∧
        (a.type = type ∧ values = a.elements ∨
          a.type.PosesAs type ∧ a.length = 0 ∧ values = []) := by
  constructor
  · intro found
    obtain ⟨hnull, reports⟩ := reported_of_elements found
    refine ⟨hnull, ?_⟩
    cases live : s.host.arrays.get? c.handle with
    | none => exact absurd reports (Session.not_reports_of_dead attached live defined)
    | some a =>
      refine ⟨a, rfl, ?_⟩
      rcases (Session.reports_iff attached live defined).mp reports with own | posing
      · rw [← own, Moves.elements_of_live attached hnull live] at found
        exact .inl ⟨own, (Except.ok.inj found).symm⟩
      · rw [elements_of_posing attached hnull live posing] at found
        split at found
        · cases found
        · next hnone => exact .inr ⟨posing, Nat.eq_zero_of_not_pos hnone, (Except.ok.inj found).symm⟩
  · rintro ⟨hnull, a, live, ⟨rfl, rfl⟩ | ⟨posing, hnone, rfl⟩⟩
    · exact Moves.elements_of_live attached hnull live
    · rw [elements_of_posing attached hnull live posing, if_neg (Nat.not_lt.mpr (Nat.le_of_eq hnone))]

/-- A write that succeeds has read the elements before, and it overwrites the array behind the handle. -/
theorem of_write {start count : Nat} {new : List Scalar} {s' : Session}
    (written : c.write type start new s = .ok count s') :
    ∃ values, c.elements type s = .ok values ∧ count = values.length ∧
      s' = (s.request () fun w => ((), w.overwriteArray c.handle start new)).2 := by
  change EStateM.bind (Act.read (c.elements type)) _ s = _ at written
  rw [EStateM.bind, Act.read_eq] at written
  cases found : c.elements type s with
  | error fault =>
    rw [found] at written
    cases written
  | ok values =>
    rw [found] at written
    cases written
    exact ⟨values, rfl, rfl, rfl⟩

end Container

/-! ## Slices -/

/-- **All elements of an array of a type**: the array is live, it was made with the type, the elements
are as many as are reported for it, and each of them is read from a place of its own in its storage. -/
structure Session.TypedSlice (s : Session) (requests : List Request) (h : Handle) (type : ElementType)
    (values : List Scalar) (a : Dense) : Prop where
  live : s.host.arrays.get? h = some a
  own_type : a.type = type
  made : MadeAs {} requests h type a.dims
  whole : s.length h = values.length
  inside : ∀ i < values.length, (i + 1) * type.storage.size ≤ a.data.length
  read : ∀ (i : Nat) (hi : i < values.length), values[i] =
    Scalar.ofBytes type.storage ((a.data.drop (i * type.storage.size)).take type.storage.size)

/-- The elements of a live array are a slice under its own type. -/
theorem Session.typedSlice_of_live {s : Session} {requests : List Request} {h : Handle} {a : Dense}
    (attached : s.attached = true) (reached : s.host = run {} requests)
    (live : s.host.arrays.get? h = some a) : s.TypedSlice requests h a.type a.elements a := by
  have wf : a.WellFormed := (run_shaped requests).wf h a (reached ▸ live)
  constructor
  case live => exact live
  case own_type => rfl
  case made => exact run_madeAs (reached ▸ live)
  case whole =>
    rw [Session.length, Session.ask, if_pos attached, Host.length, live, a.length_elements]
    rfl
  case inside =>
    intro i hi
    rw [Nat.succ_mul]
    exact wf.place_le (a.length_elements ▸ hi)
  case read =>
    intro i hi
    simp [Dense.elements, Dense.get, Dense.chunk, Dense.stride, Dense.storage]

/-- What has been read under a type without coming to nothing is such a slice. -/
theorem Container.typedSlice_of_elements {s : Session} {requests : List Request}
    (reached : s.host = run {} requests) {c : Container} {type : ElementType}
    (defined : type ≠ .numeric .undefined) {values : List Scalar}
    (found : c.elements type s = .ok values) (nonempty : values ≠ []) :
    ∃ a, s.TypedSlice requests c.handle type values a := by
  have attached := attached_of_elements defined found
  obtain ⟨-, a, live, ⟨rfl, rfl⟩ | ⟨-, -, rfl⟩⟩ := (elements_eq_ok attached defined).mp found
  · exact ⟨a, Session.typedSlice_of_live attached reached live⟩
  · exact absurd rfl nonempty

/-- An element that has been found at a position is one of those that can be read. -/
theorem Container.mem_elements_of_elementAt {s : Session} {requests : List Request}
    (reached : s.host = run {} requests) {c : Container} {type : ElementType}
    (defined : type ≠ .numeric .undefined) {position : List Int} {v : Scalar}
    (found : c.elementAt type position s = .ok v) :
    ∃ values, c.elements type s = .ok values ∧ v ∈ values := by
  cases elements : c.elements type s with
  | error fault =>
    rw [Container.elementAt, elements] at found
    cases found
  | ok values =>
    refine ⟨values, rfl, ?_⟩
    rw [Container.elementAt_eq elements] at found
    split at found
    · next offset hindex =>
      obtain rfl := Except.ok.inj found
      have attached := attached_of_elements defined elements
      obtain ⟨-, a, live, hvalues⟩ := (elements_eq_ok attached defined).mp elements
      have hdims : s.dims c.handle = a.dims := by
        rw [Session.dims, Session.ask, if_pos attached, Host.dims?, live]
        rfl
      have wf : a.WellFormed := (run_shaped requests).wf _ a (reached ▸ live)
      have inside : offset < a.length := by
        obtain ⟨hwithin, rfl⟩ := within_of_linearIndex (hdims ▸ hindex)
        rw [(elementCount?_eq_some wf.counted).1]
        exact rowMajor_lt hwithin
      have hlength : values.length = a.length := by
        rcases hvalues with ⟨-, rfl⟩ | ⟨-, hnone, rfl⟩
        · exact a.length_elements
        · exact hnone.symm
      rw [List.getD_eq_getElem?_getD, List.getElem?_eq_getElem (hlength ▸ inside), Option.getD_some]
      exact List.getElem_mem _
    · cases found

/-- **Typed access never sees another type's data.** Whatever has been asked of the host, make a
container of any kind and in any mode of any handle, and take any type that elements can have. If elements
are read or can be written, and there are any, then the handle names a live array that was made with this
type, and they are all its elements, at places inside its storage. A write changes no other array, and of
this one neither the type nor the shape nor the amount of storage. An element that is found at a position
is one of them. -/
theorem typed_access {s : Session} {requests : List Request} (reached : s.host = run {} requests)
    (c : Container) {type : ElementType} (defined : type ≠ .numeric .undefined) :
    (∀ values, c.elements type s = .ok values → values ≠ [] →
      ∃ a, s.TypedSlice requests c.handle type values a) ∧
    (∀ start new count s', c.write type start new s = .ok count s' → 0 < count →
      ∃ values a, count = values.length ∧ s.TypedSlice requests c.handle type values a ∧
        (∀ h ≠ c.handle, s'.host.arrays.get? h = s.host.arrays.get? h) ∧
        ∃ a', s'.host.arrays.get? c.handle = some a' ∧ a.SameForm a' ∧
          a'.data.length = a.data.length) ∧
    (∀ position v, c.elementAt type position s = .ok v →
      ∃ values a, c.elements type s = .ok values ∧ s.TypedSlice requests c.handle type values a ∧
        v ∈ values) := by
  refine ⟨fun values found nonempty => ?_, fun start new count s' written nonempty => ?_,
    fun position v found => ?_⟩
  · exact Container.typedSlice_of_elements reached defined found nonempty
  · obtain ⟨values, found, rfl, rfl⟩ := Container.of_write written
    have attached := Container.attached_of_elements defined found
    obtain ⟨a, slice⟩ :=
      Container.typedSlice_of_elements reached defined found (List.ne_nil_of_length_pos nonempty)
    have wf : a.WellFormed := (run_shaped requests).wf _ a (reached ▸ slice.live)
    rw [Session.request_of_attached attached]
    refine ⟨values, a, rfl, slice, fun h other => ?_, a.overwrite start new, ?_, ?_, ?_⟩
    · exact (Table.get?_modify ..).trans (if_neg other)
    · refine (Table.get?_modify ..).trans ?_
      rw [if_pos rfl, slice.live]
      rfl
    · exact ⟨(a.type_overwrite ..).symm, (a.dims_overwrite ..).symm, (a.length_overwrite ..).symm⟩
    · rw [(wf.overwrite start new).filled, wf.filled, a.length_overwrite, Dense.stride, Dense.storage,
        a.type_overwrite]
      rfl
  · obtain ⟨values, elements, member⟩ := Container.mem_elements_of_elementAt reached defined found
    obtain ⟨a, slice⟩ :=
      Container.typedSlice_of_elements reached defined elements (List.ne_nil_of_mem member)
    exact ⟨values, a, elements, slice, member⟩

/-- A tensor of reals and a numeric array of short integers, which have the same number among the types
of their families. -/
def realsAndShorts : List Request :=
  [.hostArray (.tensor .real) [2], .hostArray (.numeric .int16) [2],
    .writeArray 2 0 ([7, -9].map .integer)]

/-- A session with these arrays. -/
def withRealsAndShorts : Session where
  host := run {} realsAndShorts

/-- The reals are written as reals, and the short integers are read as such, from a container that is
said to have a tensor too. -/
theorem typed_access_realsAndShorts :
    (∃ values a, 2 = values.length ∧
      withRealsAndShorts.TypedSlice realsAndShorts 1 (.tensor .real) values a) ∧
    (∃ a, withRealsAndShorts.TypedSlice realsAndShorts 2 (.numeric .int16)
      ([7, -9].map .integer) a) ∧
    ∃ values a, withRealsAndShorts.TypedSlice realsAndShorts 2 (.numeric .int16) values a ∧
      .integer (-9) ∈ values := by
  have access := fun c => @typed_access withRealsAndShorts realsAndShorts rfl c
  refine ⟨?_, ?_, ?_⟩
  · obtain ⟨-, write, -⟩ := access ⟨.tensor, .manual, 1⟩ (by decide : .tensor .real ≠ _)
    obtain ⟨values, a, hcount, slice, -⟩ := write 0 [.real .zero] 2 _ rfl (by decide)
    exact ⟨values, a, hcount, slice⟩
  · exact (access ⟨.tensor, .constant, 2⟩ (by decide : .numeric .int16 ≠ _)).1 _ rfl (by decide)
  · obtain ⟨-, -, at_position⟩ :=
      access ⟨.numericArray, .shared, 2⟩ (by decide : .numeric .int16 ≠ _)
    obtain ⟨values, a, -, slice, member⟩ := at_position [1] (.integer (-9)) rfl
    exact ⟨values, a, slice, member⟩

/-! ## Reports and readings -/

/-- There are three types that pose as another one. -/
theorem ElementType.posesAs_iff {own type : ElementType} : own.PosesAs type ↔
    (own, type) ∈ [(.numeric .uint8, .tensor .integer), (.numeric .int16, .tensor .real),
      (.numeric .uint16, .tensor .complex)] := by
  constructor
  · rintro ⟨hnumeric, htensor, hcode⟩
    cases own with
    | tensor t => cases hnumeric
    | numeric n =>
      cases type with
      | tensor t => revert hcode; cases n <;> cases t <;> decide
      | numeric t => cases htensor
  · intro member
    simp only [List.mem_cons, Prod.mk.injEq, List.not_mem_nil, or_false] at member
    rcases member with ⟨rfl, rfl⟩ | ⟨rfl, rfl⟩ | ⟨rfl, rfl⟩ <;> exact ⟨rfl, rfl, rfl⟩

/-- **What is reported can be read, but for arrays that pose as tensors.** In a running session, take a
live array, a container of it, and any type that elements can have. Unless the array poses as having that
type and has elements, they can be read under the type exactly if the type is reported. If it does pose
and has elements, the type is reported, and reading fails because no storage is shown. -/
theorem reported_type_predicts {s : Session} (running : s.Running) {c : Container} {a : Dense}
    (live : s.host.arrays.get? c.handle = some a) {type : ElementType}
    (defined : type ≠ .numeric .undefined) :
    (¬ (a.type.PosesAs type ∧ 0 < a.length) →
      ((∃ values, c.elements type s = .ok values) ↔ s.Reports type c.handle)) ∧
    (a.type.PosesAs type ∧ 0 < a.length →
      s.Reports type c.handle ∧ c.elements type s = .error (.noArrayData .tensor)) := by
  have hnull := running.array_ne_null live
  have reports := Session.reports_iff running.attached live defined
  constructor
  · intro shown
    refine ⟨fun ⟨values, found⟩ => (Container.reported_of_elements found).2, fun reported => ?_⟩
    rcases reports.mp reported with rfl | posing
    · exact ⟨a.elements, Moves.elements_of_live running.attached hnull live⟩
    · have hnone : ¬ 0 < a.length := fun hsome => shown ⟨posing, hsome⟩
      exact ⟨[], (Container.elements_of_posing running.attached hnull live posing).trans (if_neg hnone)⟩
  · rintro ⟨posing, hsome⟩
    refine ⟨reports.mpr (.inr posing), ?_⟩
    exact (Container.elements_of_posing running.attached hnull live posing).trans (if_pos hsome)

/-- The short integers are not read as bytes, and they are reported as a tensor of reals but not read as
one. -/
theorem reported_type_predicts_realsAndShorts :
    (¬ ∃ values, Container.elements ⟨.numericArray, .manual, 2⟩ (.numeric .uint8)
      withRealsAndShorts = .ok values) ∧
    withRealsAndShorts.Reports (.tensor .real) 2 ∧
      Container.elements ⟨.tensor, .manual, 2⟩ (.tensor .real) withRealsAndShorts =
        .error (.noArrayData .tensor) := by
  have running : withRealsAndShorts.Running := .of_requests _
  constructor
  · have predicts := (reported_type_predicts (c := ⟨.numericArray, .manual, 2⟩) running rfl
      (by decide : .numeric .uint8 ≠ _)).1 fun ⟨posing, _⟩ => by cases posing.tensor
    exact fun found => absurd (predicts.mp found) (by decide)
  · exact (reported_type_predicts (c := ⟨.tensor, .manual, 2⟩) running rfl
      (by decide : .tensor .real ≠ _)).2 ⟨ElementType.posesAs_iff.mpr (by decide), by decide⟩

/-- A session whose host has an array of two unsigned bytes. -/
def withBytes : Session where
  host := run {} [.hostArray (.numeric .uint8) [2], .writeArray 1 0 ([7, 9].map .integer)]

/-- **A type that is reported and cannot be read.** The bytes are reported as a tensor of integers, and
there is nothing to read under that type. -/
theorem reported_unreadable : ∃ (c : Container) (a : Dense), withBytes.Running ∧
    withBytes.host.arrays.get? c.handle = some a ∧ a.elements = [7, 9].map .integer ∧
      withBytes.Reports (.tensor .integer) c.handle ∧
        ¬ ∃ values, c.elements (.tensor .integer) withBytes = .ok values := by
  have running : withBytes.Running := .of_requests _
  refine ⟨⟨.tensor, .automatic, 1⟩, _, running, rfl, rfl, by decide, ?_⟩
  rintro ⟨values, found⟩
  cases found

end Marshal
