import Marshal.Proofs.Container.Access

/-!
# `Proofs.Container.Sizes` — which shapes an array can be made in

An array of zeros can be made in a shape without negative dimensions whose elements fit into the
address space. The elements are counted dimension by dimension, and each product on the way has to be
addressable. From the first zero on they all are zero, so what counts is the product of the dimensions
before it. Without a zero that is the size itself. With one the size is zero, but the dimensions in front
of the zero may be too large to be multiplied: then the array is refused, although it has no elements
and another order of the same dimensions is accepted.

## Contents

* `leading`, `Admissible` — the dimensions before the first zero, and the shapes that are accepted;
* `elementCount?_isSome_iff`, `Dense.create?_isSome_iff` — counting and making, decided by the shape;
* `newArray_by_size` — creation and what the new array reports;
* `newArray_order_matters` — large dimensions before and behind a zero.
-/

namespace Marshal

open Marshal.Host

/-! ## Counting -/

/-- The dimensions before the first zero. -/
def leading (dims : List Int) : List Int := dims.takeWhile (· ≠ 0)

@[simp] theorem leading_zero_cons (dims : List Int) : leading (0 :: dims) = [] := rfl

theorem leading_cons {d : Int} (hd : d ≠ 0) (dims : List Int) :
    leading (d :: dims) = d :: leading dims :=
  List.takeWhile_cons_of_pos (decide_eq_true hd)

theorem leading_of_no_zero {dims : List Int} (h : 0 ∉ dims) : leading dims = dims := by
  induction dims with
  | nil => rfl
  | cons d dims ih =>
    obtain ⟨hd, hdims⟩ := not_or.mp (mt List.mem_cons.mpr h)
    rw [leading_cons (Ne.symm hd), ih hdims]

/-- **A shape that can be counted** has no negative dimension, and the product of the dimensions before
    the first zero can be addressed. -/
structure Admissible (dims : List Int) : Prop where
  nonneg : ∀ d ∈ dims, 0 ≤ d
  addressable : volume (leading dims) < addressLimit

theorem volume_leading_pos {dims : List Int} (hdims : ∀ d ∈ dims, 0 ≤ d) :
    0 < volume (leading dims) := by
  induction dims with
  | nil => exact Nat.one_pos
  | cons d dims ih =>
    have hd := hdims d List.mem_cons_self
    by_cases hzero : d = 0
    · subst hzero
      exact Nat.one_pos
    · rw [leading_cons hzero, volume_cons]
      have hpos : 0 < d.toNat := by omega
      exact Nat.mul_pos hpos (ih fun e he => hdims e (List.mem_cons_of_mem _ he))

/-- Counting goes through exactly if no dimension is negative and no product before the first zero is
    too large. -/
theorem elementCountFrom?_isSome_iff {count : Nat} (hcount : count < addressLimit)
    (dims : List Int) :
    (elementCountFrom? count dims).isSome = true ↔
      (∀ d ∈ dims, 0 ≤ d) ∧ count * volume (leading dims) < addressLimit := by
  induction dims generalizing count with
  | nil => simpa [elementCountFrom?, leading, volume] using hcount
  | cons d dims ih =>
    rcases Int.lt_trichotomy d 0 with hneg | rfl | hpos
    · rw [elementCountFrom?, if_pos hneg]
      refine iff_of_false Bool.false_ne_true ?_
      rintro ⟨hdims, -⟩
      exact Int.not_le.mpr hneg (hdims d List.mem_cons_self)
    · -- every product from here on is zero
      have hlimit : 0 < addressLimit := Nat.two_pow_pos 64
      have hzero : count * (0 : Int).toNat < addressLimit := hlimit
      rw [elementCountFrom?_cons (Int.le_refl 0) hzero, ih hzero]
      simp [volume, hcount, hlimit]
    · rw [leading_cons (Int.ne_of_gt hpos), volume_cons, ← Nat.mul_assoc, List.forall_mem_cons]
      by_cases hmul : count * d.toNat < addressLimit
      · rw [elementCountFrom?_cons (Int.le_of_lt hpos) hmul, ih hmul]
        simp [Int.le_of_lt hpos]
      · have hnone : elementCountFrom? count (d :: dims) = none := by
          simp [elementCountFrom?, boundedMul?, hmul]
        rw [hnone]
        refine iff_of_false Bool.false_ne_true ?_
        rintro ⟨⟨-, hdims⟩, hlimit⟩
        have hle := Nat.le_mul_of_pos_right (count * d.toNat) (volume_leading_pos hdims)
        exact hmul (Nat.lt_of_le_of_lt hle hlimit)

theorem elementCount?_isSome_iff (dims : List Int) :
    (elementCount? dims).isSome = true ↔ Admissible dims := by
  rw [elementCount?, elementCountFrom?_isSome_iff (Nat.one_lt_two_pow (by decide)), Nat.one_mul]
  exact ⟨fun h => ⟨h.1, h.2⟩, fun h => ⟨h.nonneg, h.addressable⟩⟩

/-! ## Orders of the dimensions -/

/-- Without a zero among the dimensions, the whole product has to be addressable. -/
theorem admissible_of_no_zero {dims : List Int} (hzero : 0 ∉ dims) (hdims : ∀ d ∈ dims, 0 ≤ d)
    (hsize : dims.prod < 2 ^ 64) : Admissible dims := by
  refine ⟨hdims, ?_⟩
  rw [leading_of_no_zero hzero]
  have hvolume := volume_eq_prod hdims
  unfold addressLimit
  omega

/-- A zero in front makes the size of the others irrelevant. -/
theorem admissible_zero_cons {dims : List Int} (hdims : ∀ d ∈ dims, 0 ≤ d) : Admissible (0 :: dims) :=
  ⟨List.forall_mem_cons.mpr ⟨Int.le_refl 0, hdims⟩, Nat.one_lt_two_pow (by decide)⟩

/-- Elements of every type but the undefined one take room. -/
theorem ElementType.size_pos {type : ElementType} (valid : type ≠ .numeric .undefined) :
    0 < type.storage.size := by
  cases type with
  | tensor t => cases t <;> decide
  | numeric t => exact NumericType.size_pos fun h => valid (congrArg ElementType.numeric h)

/-- There are no more elements than they have bytes. -/
theorem prod_le_of_fits {type : ElementType} (valid : type ≠ .numeric .undefined) {dims : List Int}
    (hdims : ∀ d ∈ dims, 0 ≤ d) (fits : dims.prod * type.storage.size ≤ 2 ^ 63 - 1) :
    dims.prod ≤ 2 ^ 63 - 1 := by
  have hsize : (1 : Int) ≤ type.storage.size := Int.ofNat_le.mpr (type.size_pos valid)
  have hprod : 0 ≤ dims.prod := volume_eq_prod hdims ▸ Int.natCast_nonneg _
  have hle : dims.prod * 1 ≤ dims.prod * type.storage.size := Int.mul_le_mul_of_nonneg_left hsize hprod
  omega

/-- **An array of zeros** whose size fits is there exactly if its shape is accepted. -/
theorem Dense.create?_isSome_iff {type : ElementType} (valid : type ≠ .numeric .undefined)
    {dims : List Int} (fits : dims.prod * type.storage.size ≤ 2 ^ 63 - 1) :
    (create? type dims).isSome = true ↔ Admissible dims := by
  rw [← elementCount?_isSome_iff, create?, if_neg valid]
  cases hcount : elementCount? dims with
  | none => rfl
  | some length =>
    obtain ⟨hlength, hdims⟩ := elementCount?_eq_some hcount
    have hsize : ((length * type.storage.size : Nat) : Int) ≤ 2 ^ 63 - 1 := by
      rwa [Int.natCast_mul, hlength, volume_eq_prod hdims]
    have hbound : length * type.storage.size < addressLimit := by
      unfold addressLimit
      omega
    dsimp only
    rw [boundedMul?, if_pos hbound]
    rfl

/-! ## Creation -/

/-- An action that returns in a session. -/
def Act.ReturnsIn {α : Type} (act : Act α) (s : Session) : Prop := ∃ a t, act s = .ok a t

/-- **Creation by size**: when an array is made in a shape, what it reports, and what becomes of it in
    another order of the dimensions. -/
structure Session.MakesBySize (s : Session) (type : ElementType) (dims : List Int) : Prop where
  succeeds_iff : (Act.newArray type dims).ReturnsIn s ↔ Admissible dims
  length : ∀ c t, Act.newArray type dims s = .ok c t → t.length c.handle = dims.prod
  refused : ¬ Admissible dims →
    (Act.newArray type dims).FailsAs s type.family.containerKind.creationError
  without_zero : 0 ∉ dims → ((Act.newArray type dims).ReturnsIn s ↔ ∀ d ∈ dims, 0 ≤ d)
  order_without_zero : 0 ∉ dims → ∀ dims', dims.Perm dims' →
    ((Act.newArray type dims').ReturnsIn s ↔ (Act.newArray type dims).ReturnsIn s)
  same_length : ∀ dims', dims.Perm dims' → ∀ c t c' t', Act.newArray type dims s = .ok c t →
    Act.newArray type dims' s = .ok c' t' → t'.length c'.handle = t.length c.handle
  zero_first : (∀ d ∈ dims, 0 ≤ d) → 0 ∈ dims →
    (Act.newArray type (0 :: dims.erase 0)).ReturnsIn s

/-- Creation as an equation, with the error that is raised. -/
theorem Act.newArray_eq {s : Session} (attached : s.attached = true) (type : ElementType)
    (dims : List Int) :
    Act.newArray type dims s =
      match Dense.create? type dims with
      | some d => .ok (s.newest type) { s with host := (s.host.addArray d).2 }
      | none => .error (s.registry.errorOf (.arrayCreation type dims)) s := by
  have asked := Session.request_of_attached attached none (·.newArray type dims)
  simp only [Act.newArray, bind, EStateM.bind, Act.request, asked]
  unfold Host.newArray
  cases Dense.create? type dims <;> rfl

namespace Session.Running

variable {s : Session} {type : ElementType} {dims : List Int}

/-- An array is returned if there is one of zeros. -/
theorem returnsIn_newArray (running : s.Running) :
    (Act.newArray type dims).ReturnsIn s ↔ (Dense.create? type dims).isSome = true := by
  rw [Act.ReturnsIn, Act.newArray_eq running.attached]
  cases Dense.create? type dims <;> simp

/-- Without one, the creation error of the family is raised. -/
theorem failsAs_newArray (running : s.Running) (hnone : Dense.create? type dims = none) :
    (Act.newArray type dims).FailsAs s type.family.containerKind.creationError := by
  refine ⟨s.registry.errorOf (.arrayCreation type dims), ?_, ?_⟩
  · rw [Act.newArray_eq running.attached, hnone]
  · rw [running.name_errorOf]
    cases type <;> rfl

/-- The new array has as many elements as the product of the dimensions says. -/
theorem length_newArray (running : s.Running) {c : Container} {t : Session}
    (made : Act.newArray type dims s = .ok c t) : t.length c.handle = dims.prod := by
  rw [Act.newArray_eq running.attached] at made
  cases hd : Dense.create? type dims with
  | none =>
    rw [hd] at made
    cases made
  | some d =>
    rw [hd] at made
    cases made
    obtain ⟨wf, -, rfl, -⟩ := Dense.wellFormed_create? hd
    obtain ⟨hlength, hdims⟩ := elementCount?_eq_some wf.counted
    have live : (s.host.addArray d).2.arrays.get? (s.newest type).handle = some d :=
      Table.get?_insert_self ..
    rw [Session.length, Session.ask, if_pos (by exact running.attached), Host.length, live,
      ← volume_eq_prod hdims, ← hlength]
    rfl

end Session.Running

/-- **Creation depends on the size of the shape**, but for large dimensions before a zero. In a running
    session, take any element type but the undefined one and any dimensions whose product fits into the
    address space. An array is made exactly if no dimension is negative and the product of those before
    the first zero can be addressed, and then it reports the product as its length; otherwise the
    creation error is raised. Without a zero no dimension may be negative, and nothing else is asked
    for, in any order; orders of the same dimensions that are accepted have the same length, and if
    there is a zero, the order that starts with it is accepted. -/
theorem newArray_by_size {s : Session} (running : s.Running) {type : ElementType}
    (valid : type ≠ .numeric .undefined) {dims : List Int}
    (fits : dims.prod * type.storage.size ≤ 2 ^ 63 - 1) : s.MakesBySize type dims := by
  have succeeds_iff {dims : List Int} (fits : dims.prod * type.storage.size ≤ 2 ^ 63 - 1) :
      (Act.newArray type dims).ReturnsIn s ↔ Admissible dims :=
    running.returnsIn_newArray.trans (Dense.create?_isSome_iff valid fits)
  have without_zero {dims : List Int} (fits : dims.prod * type.storage.size ≤ 2 ^ 63 - 1)
      (hzero : 0 ∉ dims) : (Act.newArray type dims).ReturnsIn s ↔ ∀ d ∈ dims, 0 ≤ d := by
    rw [succeeds_iff fits]
    refine ⟨Admissible.nonneg, fun hdims => admissible_of_no_zero hzero hdims ?_⟩
    have hprod := prod_le_of_fits valid hdims fits
    omega
  constructor
  case succeeds_iff => exact succeeds_iff fits
  case length => exact fun c t => running.length_newArray
  case refused =>
    intro hrefused
    rw [← Dense.create?_isSome_iff valid fits, Option.not_isSome_iff_eq_none] at hrefused
    exact running.failsAs_newArray hrefused
  case without_zero => exact without_zero fits
  case order_without_zero =>
    intro hzero dims' hperm
    have fits' : dims'.prod * type.storage.size ≤ 2 ^ 63 - 1 := hperm.prod_eq ▸ fits
    rw [without_zero fits hzero, without_zero fits' (mt hperm.mem_iff.mpr hzero)]
    exact forall_congr' fun d => imp_congr_left hperm.mem_iff.symm
  case same_length =>
    intro dims' hperm c t c' t' made made'
    rw [running.length_newArray made, running.length_newArray made', hperm.prod_eq]
  case zero_first =>
    intro hdims hzero
    have fits' : (0 :: dims.erase 0).prod * type.storage.size ≤ 2 ^ 63 - 1 := by simp
    exact (succeeds_iff fits').mpr
      (admissible_zero_cons fun d hd => hdims d (List.mem_of_mem_erase hd))

/-- A large dimension before a zero, and three others behind it. -/
def largeAroundZero : List Int := [1099511627776, 3, 0, 1099511627776, 1099511627776, 5]

/-- It is accepted, because only the first two are multiplied before the zero. -/
theorem newArray_by_size_largeAroundZero :
    (Act.newArray (.numeric .complex64) largeAroundZero).ReturnsIn {} := by
  have running : ({} : Session).Running := ⟨rfl, ⟨[], rfl⟩, ⟨[], .start⟩⟩
  have valid : ElementType.numeric .complex64 ≠ .numeric .undefined := by decide
  have fits : largeAroundZero.prod * (ElementType.numeric .complex64).storage.size ≤ 2 ^ 63 - 1 := by
    decide
  exact (newArray_by_size running valid fits).succeeds_iff.mpr ⟨by decide, by decide⟩

/-- Two large dimensions in front of a zero. -/
def largeBeforeZero : List Int := [1099511627776, 1099511627776, 0]

/-- The same three dimensions make a shape of no elements in any order. With the large ones first the
    array is refused, although none is negative, and with the zero first it is made. -/
theorem newArray_order_matters :
    (∀ d ∈ largeBeforeZero, 0 ≤ d) ∧ largeBeforeZero.prod = 0 ∧
    (Act.newArray (.tensor .integer) largeBeforeZero).FailsAs {} "TensorNewError" ∧
    ∃ c t, Act.newArray (.tensor .integer) largeBeforeZero.reverse {} = .ok c t ∧
      t.length c.handle = 0 :=
  ⟨by decide, by decide, ⟨_, rfl, rfl⟩, _, _, rfl, rfl⟩

end Marshal
