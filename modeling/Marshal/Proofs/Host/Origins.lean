import Marshal.Proofs.Host.Frame
import Marshal.Proofs.Host.Release
import Marshal.Proofs.Host.Shapes

/-!
# `Proofs.Host.Origins` — arrays stay what they were made as

The type and the shape of an array are settled when it is made. Later requests write elements, count
shares, or take the array out, and since numbers are not given out twice, no other array ever comes
under the same number. So the type that a live array has is the one that it was made with.

## Contents

* `Dense.SameForm`, `FormsKept` — arrays of one type and shape, and hosts whose arrays have kept theirs;
* `answer_formsKept` — a request;
* `MadeAs`, `run_madeAs` — where the live arrays of a host come from.
-/

namespace Marshal

open Marshal.Number Marshal.Text

/-- **The same form**: type, dimensions and number of elements. -/
structure Dense.SameForm (a b : Dense) : Prop where
  type : a.type = b.type
  dims : a.dims = b.dims
  length : a.length = b.length

namespace Dense.SameForm

variable {a b c : Dense}

theorem refl (a : Dense) : a.SameForm a := ⟨rfl, rfl, rfl⟩

theorem trans (h : a.SameForm b) (h' : b.SameForm c) : a.SameForm c :=
  ⟨h.type.trans h'.type, h.dims.trans h'.dims, h.length.trans h'.length⟩

end Dense.SameForm

namespace Host

variable {w w' : Host}

/-! ## One request -/

/-- **Arrays have kept their form**: one that is live now and whose number had been given out was live
with the same form. -/
structure FormsKept (w w' : Host) : Prop where
  before : ∀ h < w.nextId, ∀ a', w'.arrays.get? h = some a' →
    ∃ a, w.arrays.get? h = some a ∧ a.SameForm a'

namespace FormsKept

/-- Arrays are left alone or taken out. -/
theorem of_fewer (fewer : ∀ h a, w'.arrays.get? h = some a → w.arrays.get? h = some a) :
    FormsKept w w' :=
  ⟨fun h _ a live => ⟨a, fewer h a live, .refl a⟩⟩

theorem of_eq (same : w'.arrays = w.arrays) : FormsKept w w' :=
  of_fewer fun _ _ live => same ▸ live

theorem addArray? (w : Host) (new : Option Dense) : FormsKept w (w.addArray? new).2 := by
  cases new with
  | none => exact .of_eq rfl
  | some b =>
    refine ⟨fun h old a live => ⟨a, ?_, .refl a⟩⟩
    exact (Table.get?_insert_of_ne _ _ (Nat.ne_of_lt old)).symm.trans live

/-- An array is changed in a way that keeps its form. -/
theorem modify (w : Host) (h : Handle) {f : Dense → Dense} (keeps : ∀ a : Dense, a.SameForm (f a)) :
    FormsKept w { w with arrays := w.arrays.modify h f } := by
  refine ⟨fun k _ a' live => ?_⟩
  have hget := (Table.get?_modify ..).symm.trans live
  split at hget
  · next hk =>
    subst hk
    obtain ⟨a, found, rfl⟩ := Option.map_eq_some_iff.mp hget
    exact ⟨a, found, keeps a⟩
  · exact ⟨a', hget, .refl a'⟩

end FormsKept

/-- **Step lemma.** Whatever is asked of the host, its arrays keep their form. -/
theorem answer_formsKept (bounded : Bounded w) (r : Request) : FormsKept w (w.answer r) := by
  cases r with
  | newArray family code rank dims =>
    show FormsKept w (w.newArrayByCode family code rank dims).2
    unfold newArrayByCode
    dsimp only
    split
    · exact .addArray? ..
    · exact .of_eq rfl
  | hostArray => exact .addArray? ..
  | copyArray => exact .addArray? ..
  | convertArray source target method tolerance =>
    show FormsKept w (w.convertArrayByCode source target method tolerance).2
    unfold convertArrayByCode
    split
    · exact .addArray? ..
    · exact .of_eq rfl
  | freeArray h =>
    refine .of_fewer fun k a live => ?_
    rw [answer, get?_arrays_freeArray] at live
    split at live
    · cases live
    · exact live
  | disownArray h =>
    have given : FormsKept w { w with
        arrays := w.arrays.modify h fun a => { a with shares := max (a.shares - 1) 0 } } :=
      .modify w h fun _ => ⟨rfl, rfl, rfl⟩
    exact ⟨given.before⟩
  | shareArray h => exact .modify w h fun _ => ⟨rfl, rfl, rfl⟩
  | writeArray h start values =>
    refine .modify w h fun a => ⟨?_, ?_, ?_⟩
    · exact (a.type_overwrite start values).symm
    · exact (a.dims_overwrite start values).symm
    · exact (a.length_overwrite start values).symm
  | copyCollection c =>
    -- copying works on new numbers only, also when it fails
    have confined := (Confined.refl (Nat.le_refl _) bounded.closed).copyCollection c
    exact ⟨fun h old a live => ⟨a, (confined.1.arrays h old).symm.trans live, .refl a⟩⟩
  | freeCollection c =>
    refine .of_fewer fun k a live => ?_
    rw [answer, freeCollection, get?_arrays_freeAll] at live
    split at live
    · cases live
    · exact live
  | addNode => exact .of_eq (arrays_acceptNode ..)
  | putPacket => exact .of_eq (arrays_enqueuePacket ..)
  | processLink => exact .of_eq (arrays_evaluateLink ..)
  | _ => exact .of_eq rfl

/-! ## Runs -/

/-- **What an array was made as**: one of the requests put it there, under a number that had not been
given out before, with this type and these dimensions. -/
def MadeAs (w : Host) (requests : List Request) (h : Handle) (type : ElementType) (dims : List Int) :
    Prop :=
  ∃ before r after a, requests = before ++ r :: after ∧ (w.run before).nextId ≤ h ∧
    (w.run (before ++ [r])).arrays.get? h = some a ∧ a.type = type ∧ a.dims = dims

/-- **Run lemma.** An array that is live after some requests was live before them with the same form,
or one of the requests has made it so. -/
theorem live_or_madeAs {made : List (Handle × Use)} (past : History made w) (requests : List Request)
    {h : Handle} {a' : Dense} (live : (w.run requests).arrays.get? h = some a') :
    (∃ a, w.arrays.get? h = some a ∧ a.SameForm a') ∨ MadeAs w requests h a'.type a'.dims := by
  induction requests generalizing made w with
  | nil => exact .inl ⟨a', live, .refl a'⟩
  | cons r rest ih =>
    obtain ⟨more, past'⟩ := past.answer r
    rcases ih past' live with ⟨a, live, same⟩ | ⟨before, r', after, a, rfl, late, hlive, htype, hdims⟩
    · by_cases old : h < w.nextId
      · obtain ⟨b, live, same'⟩ := (answer_formsKept past.sound.is_bounded r).before h old a live
        exact .inl ⟨b, live, same'.trans same⟩
      · exact .inr ⟨[], r, rest, a, rfl, Nat.not_lt.mp old, live, same.type, same.dims⟩
    · exact .inr ⟨r :: before, r', after, a, rfl, late, hlive, htype, hdims⟩

/-- **Every live array is what it was made as.** -/
theorem run_madeAs {requests : List Request} {h : Handle} {a : Dense}
    (live : (run {} requests).arrays.get? h = some a) : MadeAs {} requests h a.type a.dims := by
  rcases live_or_madeAs .start requests live with ⟨a, dead, -⟩ | made
  · cases dead
  · exact made

end Host

end Marshal
