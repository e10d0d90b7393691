import Marshal.Proofs.Array.Fitting
import Marshal.Proofs.Container.Conversion

/-!
# `Proofs.Container.OwnType` — arrays converted to the type that they have

What an array holds is in its type already, so converting it to that type should change nothing and
refuse nothing. Integers lie in the range, and a single that has been widened is found again by narrowing
it. Only the check of a narrowing goes wrong: it asks how far an element is from the single nearest to it,
and infinities have no distance from themselves. So the checking methods refuse infinities in arrays of
singles, which hold them exactly; everything else comes back as it was.

## Contents

* `Real64.isInfinite`, `Scalar.parts`, `Scalar.isInfinite` — infinities among the parts of an element;
* `Dense.WellFormed.native` — what an array holds are values of its type;
* `fitsSingle_of_kept` — the check of a narrowing that loses nothing;
* `Scalar.convert?_own`, `Dense.convert?_own` — an element and an array, converted to their own type;
* `convert_own`, `infinity_refused` — conversion behind a container.
-/

namespace Marshal

open Marshal.Host Marshal.Number Marshal.Text

/-! ## Infinities -/

/-- Whether a double denotes an infinity. -/
def Number.Real64.isInfinite (x : Real64) : Bool :=
  match x.value with
  | .infinity _ => true
  | _ => false

/-- The doubles that an element consists of. -/
def Scalar.parts : Scalar → List Real64
  | .integer _ => []
  | .real x => [x]
  | .complex re im => [re, im]

/-- Whether a part of an element is an infinity. -/
def Scalar.isInfinite (v : Scalar) : Bool := v.parts.any Real64.isInfinite

/-- Whether a method refuses an element in a conversion to the element's own type. -/
def Method.balksAt (method : Method) (type : NumericType) (v : Scalar) : Bool :=
  method.checks && type.isSingle && v.isInfinite

/-! ## What an array holds -/

/-- What is read from as many bytes as a type takes is a value of the type. -/
theorem Scalar.native_ofBytes {t : NumericType} (defined : t ≠ .undefined) {b : Bytes}
    (hb : b.length = t.size) : (Scalar.ofBytes t b).Native t := by
  cases range : t.range? with
  | some bounds =>
    obtain ⟨v, hv, ge, le⟩ := ofBytes_mem_range range hb
    rw [hv]
    exact .integer range ge le
  | none =>
    cases t with
    | undefined => exact absurd rfl defined
    | real32 => exact .real32 _
    | real64 => exact .real64 _
    | complex32 => exact .complex32 _ _
    | complex64 => exact .complex64 _ _
    | _ => cases range

/-- **What an array holds** are values of its type. -/
theorem Dense.WellFormed.native {a : Dense} (wf : a.WellFormed) :
    ∀ v ∈ a.elements, v.Native a.storage := by
  have defined : a.storage ≠ .undefined := by
    have typed := wf.typed
    rw [storage]
    cases htype : a.type with
    | tensor t => cases t <;> decide
    | numeric t =>
      rintro rfl
      exact typed htype
  intro v hv
  obtain ⟨i, hi, rfl⟩ := List.mem_map.mp hv
  exact Scalar.native_ofBytes defined (wf.length_chunk (List.mem_range.mp hi))

/-! ## One element -/

theorem distance_self (q : Rat) : distance q q = 0 := by
  rw [distance, ite_self, Rat.sub_eq_add_neg, Rat.add_neg_cancel]

/-- **The check of a narrowing that loses nothing**: it takes every number but the infinities. -/
theorem fitsSingle_of_kept {x tolerance : Real64} (kept : x.narrow.widen = x)
    (lenient : tolerance.admits 0 = true) (number : x.isNaN = false) :
    fitsSingle x tolerance = !x.isInfinite := by
  unfold fitsSingle Real64.isInfinite
  rw [kept]
  cases value : x.value with
  | nan =>
    rw [Real64.isNaN, value] at number
    cases number
  | infinity negative => rfl
  | finite negative m e =>
    show tolerance.admits (distance _ _) = true
    rw [distance_self, lenient]

/-- Types of double precision are not checked for what they hold. -/
theorem Method.balksAt_double (method : Method) {type : NumericType} (double : type.isSingle = false)
    (v : Scalar) : method.balksAt type v = false := by
  rw [balksAt, double, Bool.and_false, Bool.false_and]

/-- **An element converted to its own type** is the same element, unless the method balks at it. -/
theorem Scalar.convert?_own {type : NumericType} {v : Scalar} (native : v.Native type)
    (numbers : ∀ x ∈ v.parts, x.isNaN = false) (method : Method) {tolerance : Real64}
    (lenient : tolerance.admits 0 = true) :
    v.convert? type method tolerance = if method.balksAt type v then none else some v := by
  have zero : Real64.zero.isZero = true := by decide +kernel
  have fits : ∀ x : Real32, x.widen.isNaN = false →
      fitsSingle x.widen tolerance = !x.widen.isInfinite :=
    fun x => fitsSingle_of_kept x.widen_narrow_widen lenient
  cases native with
  | @integer _ low high n range ge le =>
    have calm : method.balksAt type (.integer n) = false := Bool.and_false _
    have taken : method.clips = true ∨ low ≤ n ∧ n ≤ high := .inr ⟨ge, le⟩
    rw [convert?_integer range, if_pos taken, nearest_of_mem ge le, calm]
    rfl
  | real64 x =>
    rw [method.balksAt_double rfl]
    simp [convert?, NumericType.range?, NumericType.integerWidth?, toParts, NumericType.isSingle, zero]
  | complex64 re im =>
    rw [method.balksAt_double rfl]
    simp [convert?, NumericType.range?, NumericType.integerWidth?, toParts, NumericType.isSingle]
  | real32 x =>
    have fitsZero : fitsSingle .zero tolerance = true :=
      fitsSingle_of_kept (by decide +kernel) lenient (by decide +kernel)
    have fitsPart := fits x (numbers _ List.mem_cons_self)
    show (if method.checks && true && !(fitsSingle x.widen tolerance && fitsSingle .zero tolerance) then
        none
      else if method.checks && !Real64.zero.isZero then none else some (Scalar.real x.widen)) = _
    rw [fitsPart, fitsZero, zero]
    simp [Method.balksAt, NumericType.isSingle, isInfinite, parts]
  | complex32 re im =>
    have fitsRe := fits re (numbers _ List.mem_cons_self)
    have fitsIm := fits im (numbers _ (List.mem_cons_of_mem _ List.mem_cons_self))
    show (if method.checks && true && !(fitsSingle re.widen tolerance && fitsSingle im.widen tolerance)
      then none else some (Scalar.complex re.widen im.widen)) = _
    rw [fitsRe, fitsIm]
    simp [Method.balksAt, NumericType.isSingle, isInfinite, parts]

/-! ## Arrays -/

/-- A list whose members are kept or refused one by one is refused or kept as a whole. -/
theorem mapM_eq_self {α : Type} {f : α → Option α} {refused : α → Bool} {xs : List α}
    (each : ∀ x ∈ xs, f x = if refused x then none else some x) :
    xs.mapM f = if xs.any refused then none else some xs := by
  induction xs with
  | nil => rfl
  | cons x xs ih =>
    obtain ⟨first, rest⟩ := List.forall_mem_cons.mp each
    rw [List.mapM_cons, first, ih rest, List.any_cons]
    cases refused x <;> cases xs.any refused <;> rfl

/-- **An array converted to its own type** has the same shape and the same elements, unless the method
balks at one of them. -/
theorem Dense.convert?_own {a : Dense} (wf : a.WellFormed) {type : NumericType}
    (typed : a.type = .numeric type)
    (numbers : ∀ v ∈ a.elements, ∀ x ∈ v.parts, x.isNaN = false) (method : Method)
    {tolerance : Real64} (lenient : tolerance.admits 0 = true) :
    if a.elements.any (method.balksAt type) then a.convert? type method tolerance = none
    else ∃ b, a.convert? type method tolerance = some b ∧ b.WellFormed ∧ b.type = .numeric type ∧
      b.dims = a.dims ∧ b.shares = 0 ∧ b.elements = a.elements := by
  have hstorage : a.storage = type := by rw [storage, typed]; rfl
  have native : ∀ v ∈ a.elements, v.Native type := hstorage ▸ wf.native
  have each := mapM_eq_self fun v hv =>
    Scalar.convert?_own (native v hv) (numbers v hv) method lenient
  split
  · next refused => exact convert?_of_refused (each.trans (if_pos refused))
  · next kept =>
    have defined : type ≠ .undefined := fun h => wf.typed (h ▸ typed)
    have addressable := wf.addressable
    rw [stride, hstorage] at addressable
    exact convert?_of_converted wf typed defined addressable (each.trans (if_neg kept)) native
      a.length_elements

/-! ## Behind a container -/

/-- **Conversion to the type that an array has is the identity**, but for infinities in single
precision. In a running session, whatever the host has been asked before, take a live numeric array of any
type and shape whose elements are numbers or infinities, any method, and a tolerance that admits a
distance of zero, as zero itself does. The result is a new array of the same shape with the same elements
that nobody shares, and nothing else has changed. Only a checking method fails on an array of singles with
an infinity in it, and then nothing has changed at all. -/
theorem convert_own {s : Session} (running : s.Running) {requests : List Request}
    (reached : s.host = run {} requests) {c : Container} {a : Dense}
    (live : s.host.arrays.get? c.handle = some a) {type : NumericType}
    (typed : a.type = .numeric type)
    (numbers : ∀ v ∈ a.elements, ∀ x ∈ v.parts, x.isNaN = false) (method : Method)
    {tolerance : Real64} (lenient : tolerance.admits 0 = true) :
    c.elements (.numeric type) s = .ok a.elements ∧
    if method.checks = true ∧ type.isSingle = true ∧ ∃ v ∈ a.elements, v.isInfinite = true then
      (c.convert type method tolerance).FailsAs s "NumericArrayConversionError"
    else
      ∃ d s', c.convert type method tolerance s = .ok d s' ∧ s.GainsArray s' d ∧
        s'.Shows d (.numeric type) a.dims a.elements := by
  obtain ⟨made, past⟩ := running.hosted
  have wf : a.WellFormed := (run_shaped requests).wf c.handle a (reached ▸ live)
  have equation := c.convert_eq running.attached type method tolerance
  rw [live, Option.bind_some] at equation
  have converted := Dense.convert?_own wf typed numbers method lenient
  have balks : a.elements.any (method.balksAt type) = true ↔
      method.checks = true ∧ type.isSingle = true ∧ ∃ v ∈ a.elements, v.isInfinite = true := by
    simp only [List.any_eq_true, Method.balksAt, Bool.and_eq_true, and_assoc]
    constructor
    · rintro ⟨v, hv, hchecks, hsingle, hinfinite⟩
      exact ⟨hchecks, hsingle, v, hv, hinfinite⟩
    · rintro ⟨hchecks, hsingle, v, hv, hinfinite⟩
      exact ⟨v, hv, hchecks, hsingle, hinfinite⟩
  refine ⟨?_, ?_⟩
  · rw [← typed]
    exact Moves.elements_of_live running.attached (running.array_ne_null live) live
  split
  · next refused =>
    rw [if_pos (balks.mpr refused)] at converted
    rw [converted] at equation
    exact ⟨_, equation, running.name_errorOf _⟩
  · next kept =>
    rw [if_neg (mt balks.mp kept)] at converted
    obtain ⟨b, hb, wf', htype, hdims, hshares, helements⟩ := converted
    rw [hb] at equation
    have gained := Session.gainsArray_newest running.attached (.numeric type) hshares
    have live' : (s.host.addArray b).2.arrays.get? s.host.nextId = some b :=
      Table.get?_insert_self ..
    have hnull' : (s.newest (.numeric type)).handle ≠ Handle.null :=
      Nat.ne_of_gt past.sound.next_pos
    have shows := (running.evolves (.single (.array s.host b))).shows hnull' live' wf'
    rw [htype, hdims, helements] at shows
    exact ⟨_, _, equation, gained, shows⟩

/-- One and a half with an infinite imaginary part, and the negative zero with the least single above
zero. -/
def someComplexSingles : List Scalar :=
  [.complex (Real32.widen ⟨0x3fc00000⟩) (Real32.widen ⟨0x7f800000⟩),
    .complex (Real32.widen ⟨0x80000000⟩) (Real32.widen ⟨1⟩)]

/-- A session whose host has one array, of these singles. -/
def withComplexSingles : Session where
  host := run {} [.hostArray (.numeric .complex32) [1, 2], .writeArray 1 0 someComplexSingles]

/-- A method that scales and clips keeps them. Because of the infinity a method that checks fails. -/
theorem convert_own_complexSingles :
    (∃ d s', Container.convert ⟨.numericArray, .manual, 1⟩ .complex32 ⟨.scale, true⟩ .zero
        withComplexSingles = .ok d s' ∧
      s'.Shows d (.numeric .complex32) [1, 2] someComplexSingles) ∧
    (Container.convert ⟨.numericArray, .manual, 1⟩ .complex32 ⟨.check, true⟩ .zero).FailsAs
      withComplexSingles "NumericArrayConversionError" := by
  have running : withComplexSingles.Running := .of_requests _
  have live : withComplexSingles.host.arrays.get? 1 = some ⟨.numeric .complex32, [1, 2], 2,
      [0x00, 0x00, 0xc0, 0x3f, 0x00, 0x00, 0x80, 0x7f, 0x00, 0x00, 0x00, 0x80, 0x01, 0x00, 0x00, 0x00],
      0⟩ := by decide +kernel
  have elements : (Dense.mk (.numeric .complex32) [1, 2] 2
      [0x00, 0x00, 0xc0, 0x3f, 0x00, 0x00, 0x80, 0x7f, 0x00, 0x00, 0x00, 0x80, 0x01, 0x00, 0x00, 0x00]
      0).elements = someComplexSingles := by decide +kernel
  have numbers : ∀ v ∈ someComplexSingles, ∀ x ∈ v.parts, x.isNaN = false := by decide +kernel
  have lenient : Real64.zero.admits 0 = true := by decide +kernel
  have own := fun method => convert_own (c := ⟨.numericArray, .manual, 1⟩) running rfl live rfl
    (elements.symm ▸ numbers) method lenient
  simp only [elements] at own
  constructor
  · obtain ⟨-, h⟩ := own ⟨.scale, true⟩
    rw [if_neg fun h => by cases h.1] at h
    obtain ⟨d, s', converted, -, shows⟩ := h
    exact ⟨d, s', converted, shows⟩
  · obtain ⟨-, h⟩ := own ⟨.check, true⟩
    rwa [if_pos ⟨rfl, rfl, by decide +kernel⟩] at h

/-- A session whose host has one array, of one infinity in single precision. -/
def withInfinity : Session where
  host := run {} [.hostArray (.numeric .real32) [1],
    .writeArray 1 0 [.real (Real32.widen ⟨0x7f800000⟩)]]

/-- **An infinity is refused** by the methods that check, although an array of singles holds it and the
conversion is to singles. -/
theorem infinity_refused :
    Container.elements ⟨.numericArray, .manual, 1⟩ (.numeric .real32) withInfinity =
      .ok [.real (Real32.widen ⟨0x7f800000⟩)] ∧
    (Real32.widen ⟨0x7f800000⟩).isNaN = false ∧
    ∀ clips, (Container.convert ⟨.numericArray, .manual, 1⟩ .real32 ⟨.check, clips⟩ .zero).FailsAs
      withInfinity "NumericArrayConversionError" := by
  have running : withInfinity.Running := .of_requests _
  refine ⟨by decide +kernel, by decide +kernel, fun clips => ?_⟩
  have refused : (withInfinity.host.arrays.get? 1).bind
      (·.convert? .real32 ⟨.check, clips⟩ .zero) = none := by
    cases clips <;> decide +kernel
  have equation := Container.convert_eq running.attached ⟨.numericArray, .manual, 1⟩ .real32
    ⟨.check, clips⟩ .zero
  rw [refused] at equation
  exact ⟨_, equation, running.name_errorOf _⟩

end Marshal
