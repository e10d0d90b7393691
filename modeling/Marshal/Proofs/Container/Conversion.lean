import Marshal.Proofs.Array.Conversion
import Marshal.Proofs.Container.Access
import Marshal.Proofs.Host.Shapes

/-!
# `Proofs.Container.Conversion` — integers converted behind a container

Converting a numeric array asks the host for a new one. The host reads each element from the bytes of
the source, converts it, and writes it into the bytes of the result; the container of the result owns
it alone. If an element is refused there is no result, and nothing has happened.

## Contents

* `Container.convert_eq` — conversion as an equation;
* `Session.GainsArray` — what a session is like that has got one array more;
* `convert_integers` — the conversion of integers to integers.
-/

namespace Marshal

open Marshal.Host Marshal.Number

/-- Conversion as an equation. -/
theorem Container.convert_eq {s : Session} (attached : s.attached = true) (c : Container)
    (target : NumericType) (method : Method) (tolerance : Real64) :
    c.convert target method tolerance s =
      match (s.host.arrays.get? c.handle).bind (·.convert? target method tolerance) with
      | some b => .ok (s.newest (.numeric target)) { s with host := (s.host.addArray b).2 }
      | none => .error (s.registry.errorOf (.conversion target)) s := by
  have asked := Session.request_of_attached attached none
    (·.convertArray c.handle target method tolerance)
  simp only [Container.convert, bind, EStateM.bind, Act.request, asked]
  unfold convertArray
  cases (s.host.arrays.get? c.handle).bind (·.convert? target method tolerance) <;> rfl

/-- **A session with one array more**: the container that owns it has the next number, it is not shared
with anybody, and everything else is as it was. -/
structure Session.GainsArray (s s' : Session) (c : Container) : Prop where
  mode : c.mode = .manual
  number : c.handle = s.host.nextId
  unshared : c.shareCount s' = 0
  added : ∃ b, s' = { s with host := (s.host.addArray b).2 }
  others : ∀ h, h ≠ c.handle → s'.host.arrays.get? h = s.host.arrays.get? h

/-- An array that nobody shares, in the container made for it. -/
theorem Session.gainsArray_newest {s : Session} (attached : s.attached = true) (type : ElementType)
    {b : Dense} (unshared : b.shares = 0) :
    s.GainsArray { s with host := (s.host.addArray b).2 } (s.newest type) where
  mode := rfl
  number := rfl
  unshared := by
    have live : (s.host.addArray b).2.arrays.get? s.host.nextId = some b :=
      Table.get?_insert_self ..
    have hask : Session.ask { s with host := (s.host.addArray b).2 } 0
        (·.shareCount s.host.nextId) = 0 := by
      rw [Session.ask, if_pos attached, Host.shareCount, live]
      exact unshared
    unfold Container.shareCount Session.shareCount
    split
    · rfl
    · cases type <;> exact hask
  added := ⟨b, rfl⟩
  others h hh := Table.get?_insert_of_ne _ _ hh

/-- **Integer conversion is exact.** In a running session, whatever the host has been asked before, take
a live array of integers of any type, any integer type to convert to, any method and any tolerance, and
suppose that the bytes of the result can be addressed. If the method clips or all elements lie in the
range of the target, then the result is a new array of the same shape that nobody shares, each of its
elements is the one of the source or the bound of the range next to it, and nothing else has changed.
Otherwise it is an error, and nothing has changed at all. -/
theorem convert_integers {s : Session} (running : s.Running) {requests : List Request}
    (reached : s.host = run {} requests) {c : Container} {a : Dense}
    (live : s.host.arrays.get? c.handle = some a) {source target : NumericType}
    {least greatest low high : Int} (typed : a.type = .numeric source)
    (integers : source.range? = some (least, greatest)) (range : target.range? = some (low, high))
    (addressable : a.length * target.size < addressLimit) (method : Method) (tolerance : Real64) :
    ∃ values : List Int, c.elements (.numeric source) s = .ok (values.map .integer) ∧
      (∀ v ∈ values, least ≤ v ∧ v ≤ greatest) ∧
      if method.Takes low high values then
        ∃ d s', c.convert target method tolerance s = .ok d s' ∧ s.GainsArray s' d ∧
          s'.Shows d (.numeric target) a.dims (values.map fun v => .integer (nearest low high v))
      else (c.convert target method tolerance).FailsAs s "NumericArrayConversionError" := by
  obtain ⟨made, past⟩ := running.hosted
  have wf : a.WellFormed := (run_shaped requests).wf c.handle a (reached ▸ live)
  have hnull : c.handle ≠ Handle.null :=
    Nat.ne_of_gt (past.sound.lt_next (u := .array) (Table.contains_of_get? live)).1
  have hstorage : a.storage = source := by rw [Dense.storage, typed]; rfl
  obtain ⟨values, elements, bounds⟩ := wf.exists_integers (hstorage ▸ integers)
  have equation := c.convert_eq running.attached target method tolerance
  rw [live, Option.bind_some] at equation
  have converted := Dense.convert?_integers wf typed range addressable elements method tolerance
  refine ⟨values, ?_, bounds, ?_⟩
  · rw [← elements, ← typed]
    exact Moves.elements_of_live running.attached hnull live
  split at converted
  · next taken =>
    obtain ⟨b, hb, wf', htype, hdims, hshares, helements⟩ := converted
    rw [hb] at equation
    rw [if_pos taken]
    refine ⟨_, _, equation, Session.gainsArray_newest running.attached _ hshares, ?_⟩
    have running' := running.evolves (.single (.array s.host b))
    have live' : (s.host.addArray b).2.arrays.get? s.host.nextId = some b :=
      Table.get?_insert_self ..
    have hnull' : (s.newest (.numeric target)).handle ≠ Handle.null :=
      Nat.ne_of_gt past.sound.next_pos
    have shows := running'.shows hnull' live' wf'
    rwa [htype, hdims, helements] at shows
  · next refused =>
    rw [converted] at equation
    rw [if_neg refused]
    exact ⟨_, equation, running.name_errorOf _⟩

/-- A session whose host has one array, of the least and the greatest short integer and two integers
between them. -/
def shortIntegers : Session where
  host := run {} [.hostArray (.numeric .int16) [2, 1, 2],
    .writeArray 1 0 ([-32768, 32767, -1, 255].map .integer)]

/-- They are taken to bytes by a method that clips, with a tolerance that is no number. -/
theorem convert_integers_shortIntegers : ∃ d s',
    Container.convert ⟨.numericArray, .manual, 1⟩ .uint8 ⟨.scale, true⟩ ⟨0x7ff8000000000000⟩
        shortIntegers = .ok d s' ∧
      s'.Shows d (.numeric .uint8) [2, 1, 2] ([0, 255, 0, 255].map .integer) := by
  have running : shortIntegers.Running := by
    obtain ⟨more, past⟩ := History.start.run [.hostArray (.numeric .int16) [2, 1, 2],
      .writeArray 1 0 ([-32768, 32767, -1, 255].map .integer)]
    exact ⟨rfl, ⟨[], rfl⟩, ⟨_, past⟩⟩
  obtain ⟨values, elements, -, h⟩ := convert_integers (c := ⟨.numericArray, .manual, 1⟩) running rfl
    rfl rfl rfl (show NumericType.uint8.range? = some (0, 255) from rfl) (by decide) ⟨.scale, true⟩
    ⟨0x7ff8000000000000⟩
  have hvalues : values.map Scalar.integer = [-32768, 32767, -1, 255].map .integer :=
    (Except.ok.inj elements).symm
  obtain rfl := List.map_injective_iff.mpr (fun _ _ => Scalar.integer.inj) hvalues
  rw [if_pos (.inl rfl)] at h
  obtain ⟨d, s', converted, -, shows⟩ := h
  exact ⟨d, s', converted, shows⟩

end Marshal
