import Marshal.Proofs.Array.Fitting
import Marshal.Proofs.Container.Conversion

/-!
# `Proofs.Container.Clipping` — a clipping method extends the plain one

The methods come in pairs with one rule each. Both go the same way until an integer is to be put into
the range of the target: there the plain method refuses what lies outside, and the clipping method takes
the nearer bound. So the clipping method converts whatever the plain method converts, to the same
result, and what it converts besides becomes a bound. Where there is no range, there is no difference.

## Contents

* `Scalar.convert?_clips` — one element under both methods;
* `Dense.convert?_clips_of_plain`, `Dense.convert?_clips_eq` — an array under both methods;
* `Container.ClipExtends`, `clipping_extends` — conversion behind a container under both methods.
-/

namespace Marshal

open Marshal.Host Marshal.Number

/-! ## One element -/

/-- Clipping changes nothing for an integer in range and gives a bound for any other. -/
theorem clampTo_clips (low high v : Int) :
    clampTo low high true v = clampTo low high false v ∨
      (clampTo low high false v = none ∧
        (clampTo low high true v = some low ∨ clampTo low high true v = some high)) := by
  unfold clampTo
  by_cases within : low ≤ v ∧ v ≤ high
  · exact .inl (by rw [if_pos within, if_pos within])
  · refine .inr ⟨by rw [if_neg within, if_neg Bool.false_ne_true], ?_⟩
    rw [if_neg within, if_pos rfl]
    by_cases below : v < low
    · exact .inl (by rw [if_pos below])
    · exact .inr (by rw [if_neg below])

/-- **One element under both methods**: the outcome is the same, or the plain method refuses the
element and the clipping method gives a bound of the target's range. -/
theorem Scalar.convert?_clips (v : Scalar) (target : NumericType) (rule : Rule) (tolerance : Real64) :
    v.convert? target ⟨rule, true⟩ tolerance = v.convert? target ⟨rule, false⟩ tolerance ∨
      (v.convert? target ⟨rule, false⟩ tolerance = none ∧
        ∃ low high, target.range? = some (low, high) ∧
          (v.convert? target ⟨rule, true⟩ tolerance = some (.integer low) ∨
            v.convert? target ⟨rule, true⟩ tolerance = some (.integer high))) := by
  cases range : target.range? with
  | none =>
    left
    unfold convert?
    rw [range]
    rfl
  | some bounds =>
    obtain ⟨low, high⟩ := bounds
    -- on the way to an integer the methods do not differ
    have sameWay : v.toInteger high ⟨rule, true⟩ tolerance =
        v.toInteger high ⟨rule, false⟩ tolerance := rfl
    simp only [convert?, range, sameWay]
    cases v.toInteger high ⟨rule, false⟩ tolerance with
    | none => exact .inl rfl
    | some n =>
      simp only [Option.bind_some]
      rcases clampTo_clips low high n with same | ⟨refused, bound⟩
      · exact .inl (by rw [same])
      · refine .inr ⟨by rw [refused]; rfl, low, high, rfl, ?_⟩
        rcases bound with bound | bound
        · exact .inl (by rw [bound]; rfl)
        · exact .inr (by rw [bound]; rfl)

/-- What the plain method converts, the clipping method converts to the same. -/
theorem Scalar.convert?_clips_of_plain {v w : Scalar} {target : NumericType} {rule : Rule}
    {tolerance : Real64} (plain : v.convert? target ⟨rule, false⟩ tolerance = some w) :
    v.convert? target ⟨rule, true⟩ tolerance = some w := by
  rcases v.convert?_clips target rule tolerance with same | ⟨refused, -⟩
  · rw [same, plain]
  · cases refused.symm.trans plain

/-- Without a range there is nothing to clip. -/
theorem Scalar.convert?_clips_eq {target : NumericType} (range : target.range? = none)
    (v : Scalar) (rule : Rule) (tolerance : Real64) :
    v.convert? target ⟨rule, true⟩ tolerance = v.convert? target ⟨rule, false⟩ tolerance := by
  rcases v.convert?_clips target rule tolerance with same | ⟨-, low, high, hrange, -⟩
  · exact same
  · cases range.symm.trans hrange

/-! ## Arrays -/

/-- An array that the plain method converts becomes the same array by clipping. -/
theorem Dense.convert?_clips_of_plain {a b : Dense} {target : NumericType} {rule : Rule}
    {tolerance : Real64} (plain : a.convert? target ⟨rule, false⟩ tolerance = some b) :
    a.convert? target ⟨rule, true⟩ tolerance = some b := by
  unfold Dense.convert? at plain ⊢
  split at plain
  · cases plain
  · split at plain
    · cases plain
    · obtain ⟨values, converted, rfl⟩ := Option.map_eq_some_iff.mp plain
      have clipped := mapM_eq_some_iff.mpr ((mapM_eq_some_iff.mp converted).imp
        fun _ _ => Scalar.convert?_clips_of_plain)
      rw [clipped, Option.map_some]

theorem Dense.convert?_clips_eq {target : NumericType} (range : target.range? = none) (a : Dense)
    (rule : Rule) (tolerance : Real64) :
    a.convert? target ⟨rule, true⟩ tolerance = a.convert? target ⟨rule, false⟩ tolerance := by
  have same : (Scalar.convert? · target ⟨rule, true⟩ tolerance) =
      (Scalar.convert? · target ⟨rule, false⟩ tolerance) :=
    funext fun v => v.convert?_clips_eq range rule tolerance
  unfold Dense.convert?
  rw [same]

/-! ## Behind a container -/

/-- What the clipping method stores for an element: what the plain method makes of it, as the target
keeps it, or a bound of the target's range for an element that the plain method refuses. -/
def Scalar.ClippedTo (target : NumericType) (rule : Rule) (tolerance : Real64) (v stored : Scalar) :
    Prop :=
  (∃ w, v.convert? target ⟨rule, false⟩ tolerance = some w ∧ stored = w.roundedTo target) ∨
    (v.convert? target ⟨rule, false⟩ tolerance = none ∧ ∃ low high,
      target.range? = some (low, high) ∧ (stored = .integer low ∨ stored = .integer high))

/-- **Clipping extends the plain method.** What the plain method converts, the clipping method converts
to the same array in the same session. What the clipping method converts has the shape of the source, and
each element is the one that the plain method makes, or a bound of the range in place of one that it
refuses. The elements of an array that cannot be converted as a whole have no other outcomes either. For a
target without a range the methods do the same, whether they succeed or fail. -/
structure Container.ClipExtends (c : Container) (s : Session) (source target : NumericType)
    (rule : Rule) (tolerance : Real64) : Prop where
  kept : ∀ d s', c.convert target ⟨rule, false⟩ tolerance s = .ok d s' →
    c.convert target ⟨rule, true⟩ tolerance s = .ok d s'
  clipped : ∀ d s', c.convert target ⟨rule, true⟩ tolerance s = .ok d s' →
    ∃ values stored, c.elements (.numeric source) s = .ok values ∧
      d.elements (.numeric target) s' = .ok stored ∧ s'.dims d.handle = s.dims c.handle ∧
      List.Forall₂ (Scalar.ClippedTo target rule tolerance) values stored
  element : ∀ v w, Scalar.convert? v target ⟨rule, true⟩ tolerance = some w →
    Scalar.convert? v target ⟨rule, false⟩ tolerance = none →
      ∃ low high, target.range? = some (low, high) ∧ (w = .integer low ∨ w = .integer high)
  alike : target.range? = none →
    c.convert target ⟨rule, true⟩ tolerance s = c.convert target ⟨rule, false⟩ tolerance s

/-- The elements of a converted array under the clipping method. -/
theorem Dense.elements_clipped {a b : Dense} (wf : a.WellFormed) {target : NumericType} {rule : Rule}
    {tolerance : Real64} (h : a.convert? target ⟨rule, true⟩ tolerance = some b) :
    List.Forall₂ (Scalar.ClippedTo target rule tolerance) a.elements b.elements := by
  obtain ⟨-, -, values, each, stored⟩ := elements_convert? wf h
  rw [stored, List.forall₂_map_right_iff]
  refine each.imp fun v w clipped => ?_
  rcases v.convert?_clips target rule tolerance with same | ⟨refused, low, high, range, bound⟩
  · exact .inl ⟨w, same.symm.trans clipped, rfl⟩
  · refine .inr ⟨refused, low, high, range, ?_⟩
    rw [clipped] at bound
    rcases bound with bound | bound
    · exact .inl (by rw [Option.some.inj bound, Scalar.roundedTo_integer])
    · exact .inr (by rw [Option.some.inj bound, Scalar.roundedTo_integer])

/-- **Each clipping method extends its plain method.** In a running session, whatever the host has been
asked before, take a live numeric array of any type and shape, any target, any rule and any tolerance. -/
theorem clipping_extends {s : Session} (running : s.Running) {requests : List Request}
    (reached : s.host = run {} requests) {c : Container} {a : Dense}
    (live : s.host.arrays.get? c.handle = some a) {source : NumericType}
    (typed : a.type = .numeric source) (target : NumericType) (rule : Rule) (tolerance : Real64) :
    c.ClipExtends s source target rule tolerance := by
  obtain ⟨made, past⟩ := running.hosted
  have wf : a.WellFormed := (run_shaped requests).wf c.handle a (reached ▸ live)
  have equation := fun method => c.convert_eq running.attached target method tolerance
  simp only [live, Option.bind_some] at equation
  constructor
  case kept =>
    intro d s' plain
    rw [equation] at plain ⊢
    cases hb : a.convert? target ⟨rule, false⟩ tolerance with
    | none =>
      rw [hb] at plain
      cases plain
    | some b =>
      rw [hb] at plain
      rw [Dense.convert?_clips_of_plain hb]
      exact plain
  case clipped =>
    intro d s' clipped
    rw [equation] at clipped
    cases hb : a.convert? target ⟨rule, true⟩ tolerance with
    | none =>
      rw [hb] at clipped
      cases clipped
    | some b =>
      rw [hb] at clipped
      obtain ⟨rfl, rfl⟩ := EStateM.Result.ok.inj clipped
      obtain ⟨htype, hdims, -⟩ := Dense.elements_convert? wf hb
      have hnull' : (s.newest (.numeric target)).handle ≠ Handle.null :=
        Nat.ne_of_gt past.sound.next_pos
      have live' : (s.host.addArray b).2.arrays.get? s.host.nextId = some b :=
        Table.get?_insert_self ..
      have shows := running.shows (running.array_ne_null live) live wf
      have shows' := (running.evolves (.single (.array s.host b))).shows hnull' live'
        (Dense.wellFormed_convert? hb)
      refine ⟨a.elements, b.elements, typed ▸ shows.data, htype ▸ shows'.data, ?_,
        Dense.elements_clipped wf hb⟩
      rw [shows.reported_dims, shows'.reported_dims, hdims]
  case element =>
    intro v w clipped refused
    rcases v.convert?_clips target rule tolerance with same | ⟨-, low, high, range, bound⟩
    · cases (same.symm.trans clipped).symm.trans refused
    · refine ⟨low, high, range, ?_⟩
      rw [clipped] at bound
      exact bound.imp Option.some.inj Option.some.inj
  case alike =>
    intro range
    rw [equation, equation, a.convert?_clips_eq range]

/-- Two and a half, three hundred, minus one, one half. -/
def someReals : List Scalar :=
  [.real ⟨0x4004000000000000⟩, .real ⟨0x4072c00000000000⟩, .real ⟨0xbff0000000000000⟩,
    .real ⟨0x3fe0000000000000⟩]

/-- A session whose host has one array, of these reals. -/
def withReals : Session where
  host := run {} [.hostArray (.numeric .real64) [2, 2], .writeArray 1 0 someReals]

/-- With their fractions cut off they are short integers, for which nothing has to be clipped, and
clipping makes bytes of them. -/
theorem clipping_extends_someReals :
    (∃ d s', Container.convert ⟨.numericArray, .manual, 1⟩ .int16 ⟨.coerce, true⟩ .zero withReals =
        .ok d s' ∧
      d.elements (.numeric .int16) s' = .ok ([2, 300, -1, 0].map .integer)) ∧
    List.Forall₂ (Scalar.ClippedTo .uint8 .coerce .zero) someReals
      ([2, 255, 0, 0].map .integer) := by
  have running : withReals.Running := .of_requests _
  have extended := fun target => clipping_extends (c := ⟨.numericArray, .manual, 1⟩) running rfl rfl
    rfl target .coerce .zero
  have equation := fun target method =>
    Container.convert_eq running.attached ⟨.numericArray, .manual, 1⟩ target method .zero
  constructor
  · have converted : (withReals.host.arrays.get? 1).bind
        (·.convert? .int16 ⟨.coerce, false⟩ .zero) =
          some ⟨.numeric .int16, [2, 2], 4, [2, 0, 44, 1, 255, 255, 0, 0], 0⟩ := by decide +kernel
    have plain := equation .int16 ⟨.coerce, false⟩
    rw [converted] at plain
    exact ⟨_, _, (extended .int16).kept _ _ plain, rfl⟩
  · have converted : (withReals.host.arrays.get? 1).bind
        (·.convert? .uint8 ⟨.coerce, true⟩ .zero) =
          some ⟨.numeric .uint8, [2, 2], 4, [2, 255, 0, 0], 0⟩ := by decide +kernel
    have clipped := equation .uint8 ⟨.coerce, true⟩
    rw [converted] at clipped
    obtain ⟨values, stored, hvalues, hstored, -, each⟩ := (extended .uint8).clipped _ _ clipped
    obtain rfl : someReals = values := Except.ok.inj hvalues
    obtain rfl : [2, 255, 0, 0].map Scalar.integer = stored := Except.ok.inj hstored
    exact each

end Marshal
