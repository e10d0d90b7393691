import Marshal.Proofs.Array.Positions
import Marshal.Proofs.Array.Storage
import Marshal.Proofs.Session.Creation
import Marshal.Proofs.Session.Detachment

/-!
# `Proofs.Container.Access` — shape and positions agree with the elements

An array made with given elements reports the shape that was asked for and shows these elements, and
each position list gets an answer that the shape decides: a list of the wrong length and one with a
coordinate outside its dimension are refused, with an error each, and any other one names the element
with its row-major number.

## Contents

* `Family.sizeError`, `Family.indexError` — the errors of refused positions;
* `Session.Shows` — all that can be read from an array with given elements;
* `Container.elementAt_eq` — positional access as an equation;
* `arrayOf_shows` — an array made with given elements shows them.
-/

namespace Marshal

open Marshal.Host

/-! ## What an array shows -/

/-- The error of a position with the wrong number of coordinates. -/
def Family.sizeError : Family → String
  | .tensor => "TensorSizeError"
  | .numericArray => "NumericArraySizeError"

/-- The error of a position with a coordinate outside its dimension. -/
def Family.indexError : Family → String
  | .tensor => "TensorIndexError"
  | .numericArray => "NumericArrayIndexError"

/-- **A container shows elements in a shape**: what is reported of the shape, the elements in
row-major order, the answer for each position, and how positions and elements correspond. -/
structure Session.Shows (s : Session) (c : Container) (type : ElementType) (dims : List Int)
    (values : List Scalar) : Prop where
  reported_rank : s.rank c.handle = dims.length
  reported_dims : s.dims c.handle = dims
  reported_length : s.length c.handle = dims.prod
  data : c.elements type s = .ok values
  wrong_rank : ∀ position, position.length ≠ dims.length →
    (Act.read (c.elementAt type position)).FailsAs s type.family.sizeError
  outside : ∀ position, position.length = dims.length →
    (∃ q ∈ dims.zip position, q.2 < 0 ∨ q.1 ≤ q.2) →
      (Act.read (c.elementAt type position)).FailsAs s type.family.indexError
  within : ∀ position, Within dims position → ∃ inside : rowMajor dims position < values.length,
    c.elementAt type position s = .ok values[rowMajor dims position]
  one_to_one : ∀ k < values.length, ∃! position, Within dims position ∧ rowMajor dims position = k
  /-- The number of a position is found without leaving the address space. -/
  addressable : ∀ position,
    boundedIndexFrom? 0 dims position = some (linearIndexFrom 0 dims position)

/-! ## Positional access -/

/-- The element at a position is the one with the position's number. -/
theorem Container.elementAt_eq {c : Container} {type : ElementType} {s : Session}
    {values : List Scalar} (h : c.elements type s = .ok values) (position : List Int) :
    c.elementAt type position s =
      match linearIndex (s.dims c.handle) position with
      | .ok offset => .ok (values.getD offset (.integer 0))
      | .error fault => .error (.position type.family fault position (s.dims c.handle)) := by
  unfold Container.elementAt
  rw [h]
  dsimp only [bind, Except.bind]
  cases linearIndex (s.dims c.handle) position <;> rfl

/-- A position that is refused is refused with an error of the fault's name. -/
theorem Session.Running.failsAs_position {s : Session} (running : s.Running) {c : Container}
    {type : ElementType} {values : List Scalar} (elements : c.elements type s = .ok values)
    {position : List Int} {fault : PositionFault}
    (refused : linearIndex (s.dims c.handle) position = .error fault) :
    (Act.read (c.elementAt type position)).FailsAs s
      (match fault with
        | .rank => type.family.sizeError
        | .bounds => type.family.indexError) := by
  refine ⟨s.registry.errorOf (.position type.family fault position (s.dims c.handle)), ?_, ?_⟩
  · rw [Act.read_eq, Container.elementAt_eq elements, refused]
  · rw [running.name_errorOf]
    cases fault <;> cases type <;> rfl

/-! ## Arrays that are live -/

theorem Session.Running.array_ne_null {s : Session} (running : s.Running) {h : Handle} {a : Dense}
    (live : s.host.arrays.get? h = some a) : h ≠ Handle.null := by
  obtain ⟨_, past⟩ := running.hosted
  have named : s.host.names .array h = true := Table.contains_of_get? live
  exact Nat.ne_of_gt (past.sound.lt_next named).1

/-- **A live array shows its elements**, if its storage agrees with its shape. -/
theorem Session.Running.shows {s : Session} (running : s.Running) {c : Container} {d : Dense}
    (hnull : c.handle ≠ Handle.null) (live : s.host.arrays.get? c.handle = some d)
    (wf : d.WellFormed) : s.Shows c d.type d.dims d.elements := by
  obtain ⟨hlength, hdims⟩ := elementCount?_eq_some wf.counted
  have elements : c.elements d.type s = .ok d.elements :=
    Moves.elements_of_live running.attached hnull live
  have dims : s.dims c.handle = d.dims := by
    rw [Session.dims, Session.ask, if_pos running.attached, Host.dims?, live]
    rfl
  constructor
  case reported_rank =>
    rw [Session.rank, Session.ask, if_pos running.attached, Host.rank, live]
    rfl
  case reported_dims => exact dims
  case reported_length =>
    rw [Session.length, Session.ask, if_pos running.attached, Host.length, live,
      ← volume_eq_prod hdims, ← hlength]
    rfl
  case data => exact elements
  case wrong_rank =>
    intro position hrank
    have refused : linearIndex (s.dims c.handle) position = .error .rank :=
      dims ▸ linearIndex_of_length_ne (Ne.symm hrank)
    exact running.failsAs_position elements refused
  case outside =>
    intro position hrank hout
    have refused : linearIndex (s.dims c.handle) position = .error .bounds :=
      dims ▸ linearIndex_of_outside hrank hout
    exact running.failsAs_position elements refused
  case within =>
    intro position hwithin
    have inside : rowMajor d.dims position < d.elements.length := by
      rw [Dense.length_elements, hlength]
      exact rowMajor_lt hwithin
    refine ⟨inside, ?_⟩
    rw [Container.elementAt_eq elements, dims, linearIndex_of_within hwithin]
    dsimp only
    rw [List.getD_eq_getElem?_getD, List.getElem?_eq_getElem inside, Option.getD_some]
  case one_to_one =>
    intro k hk
    rw [Dense.length_elements, hlength] at hk
    exact existsUnique_position hk
  case addressable => exact boundedIndexFrom?_eq wf.counted Nat.one_pos

/-! ## Arrays with given elements -/

/-- **An array made with given elements shows them.** In a running session, take any element type, any
dimensions, and elements that are values of the type's machine type. If an array can be made of them,
then it reports these dimensions and their product, and its elements are the given ones; a position with
another number of coordinates is refused with the size error of the family, one with a coordinate
outside its dimension with the index error, and any other one names the element with its row-major
number, which is the number of no other position; and finding the number overflows nowhere. -/
theorem arrayOf_shows {s s' : Session} {c : Container} {type : ElementType} {dims : List Int}
    {values : List Scalar} (running : s.Running) (native : ∀ v ∈ values, v.Native type.storage)
    (made : Act.arrayOf type dims values s = .ok c s') : s'.Shows c type dims values := by
  obtain ⟨_, past⟩ := running.hosted
  have hpos := past.sound.next_pos
  have hout : outcome (Act.arrayOf type dims values) s = (some c, s') := by rw [outcome, made]
  rw [Act.outcome_arrayOf running.attached hpos] at hout
  cases hd : Dense.create? type dims with
  | none =>
    rw [hd] at hout
    cases (Prod.mk.inj hout).1
  | some d =>
    rw [hd] at hout
    dsimp only at hout
    split at hout
    · next hlength =>
      obtain ⟨hc, rfl⟩ := Prod.mk.inj hout
      obtain rfl := Option.some.inj hc
      obtain ⟨wf, rfl, rfl, -⟩ := Dense.wellFormed_create? hd
      have running' := running.evolves
        ((Evolves.addArray? s.host (some d)).trans (.single (.modifyArray _ s.host.nextId
          (·.overwrite 0 values))))
      have live : ((s.host.addArray d).2.overwriteArray s.host.nextId 0 values).arrays.get?
          s.host.nextId = some (d.overwrite 0 values) := by
        have hadded : (s.host.addArray d).2.arrays.get? s.host.nextId = some d :=
          Table.get?_insert_self ..
        rw [overwriteArray, Table.get?_modify, if_pos rfl, hadded]
        rfl
      have hnull : (s.newest d.type).handle ≠ Handle.null := Nat.ne_of_gt hpos
      have shows := running'.shows hnull live (wf.overwrite 0 values)
      rwa [Dense.type_overwrite, Dense.dims_overwrite,
        Dense.elements_overwrite wf native hlength.symm] at shows
    · cases (Prod.mk.inj hout).1

/-- A half more than one, the least single above zero, a single that is no number, and an infinity. -/
def someSingles : List Scalar :=
  [.real (Number.Real32.widen ⟨0x3fc00000⟩), .real (Number.Real32.widen ⟨1⟩),
    .real (Number.Real32.widen ⟨0x7fc12345⟩), .real (Number.Real32.widen ⟨0xff800000⟩)]

/-- They are shown in a shape with a dimension of one in the middle. -/
theorem arrayOf_shows_someSingles : ∃ c s',
    Act.arrayOf (.numeric .real32) [2, 1, 2] someSingles {} = .ok c s' ∧
      s'.Shows c (.numeric .real32) [2, 1, 2] someSingles := by
  have running : ({} : Session).Running := ⟨rfl, ⟨[], rfl⟩, ⟨[], .start⟩⟩
  have native : ∀ v ∈ someSingles, v.Native (ElementType.numeric .real32).storage := by
    intro v hv
    simp only [someSingles, List.mem_cons, List.not_mem_nil, or_false] at hv
    rcases hv with rfl | rfl | rfl | rfl <;> exact .real32 _
  exact ⟨_, _, rfl, arrayOf_shows running native rfl⟩

end Marshal
