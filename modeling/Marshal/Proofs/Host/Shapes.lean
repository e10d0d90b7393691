import Marshal.Proofs.Array.Storage
import Marshal.Proofs.Host.Release
import Marshal.Proofs.Host.Requests

/-!
# `Proofs.Host.Shapes` — the storage of live arrays agrees with their shapes

The host makes arrays in three ways only: of zeros, as copies, and by converting. Writing goes into
the storage that is there, sharing touches a count, and everything else leaves arrays alone or takes
them out. So every live array of a host that has been asked for anything at all has exactly the bytes
that its shape and its type call for.

## Contents

* `Dense.wellFormed_convert?` — conversion makes arrays that are well formed;
* `Shaped` — every live array is well formed;
* `Shaped.answer`, `run_shaped` — a request and a run.
-/

namespace Marshal

open Marshal.Number Marshal.Text

/-- An array made by converting is well formed. -/
theorem Dense.wellFormed_convert? {a b : Dense} {target : NumericType} {method : Method}
    {tolerance : Real64} (h : a.convert? target method tolerance = some b) : b.WellFormed := by
  unfold Dense.convert? at h
  split at h
  · cases h
  · split at h
    · cases h
    · next copy hcopy =>
      obtain ⟨values, -, rfl⟩ := Option.map_eq_some_iff.mp h
      exact (wellFormed_create? hcopy).1.overwrite 0 values

namespace Host

/-! ## What leaves arrays alone -/

theorem arrays_appendNode (w : Host) (c : Handle) (name : Option Bytes) (payload : Payload) :
    (w.appendNode c name payload).arrays = w.arrays := by
  unfold Host.appendNode
  split <;> rfl

theorem arrays_acceptNode (w : Host) (c : Handle) (name : Option Bytes) (payload : Payload) :
    (w.acceptNode c name payload).arrays = w.arrays := by
  unfold Host.acceptNode
  split
  · exact arrays_appendNode ..
  · split
    · rfl
    · exact arrays_appendNode ..
  · exact arrays_appendNode ..

theorem arrays_enqueuePacket (w : Host) (h : Handle) (packet : Bytes) :
    (w.enqueuePacket h packet).2.arrays = w.arrays := by
  unfold Host.enqueuePacket
  split
  · split <;> rfl
  · rfl

theorem arrays_evaluateLink (w : Host) (h : Handle) : (w.evaluateLink h).2.arrays = w.arrays := by
  unfold Host.evaluateLink
  split
  · split <;> rfl
  · rfl

/-! ## Well-formed arrays -/

/-- **Every live array is well formed.** -/
structure Shaped (w : Host) : Prop where
  wf : ∀ h a, w.arrays.get? h = some a → a.WellFormed

namespace Shaped

variable {w w' : Host}

theorem empty : Shaped {} := ⟨fun _ _ live => by cases live⟩

/-- Arrays that are left alone or taken out leave the others well formed. -/
theorem of_fewer (shaped : Shaped w)
    (fewer : ∀ h a, w'.arrays.get? h = some a → w.arrays.get? h = some a) : Shaped w' :=
  ⟨fun h a live => shaped.wf h a (fewer h a live)⟩

theorem of_eq (shaped : Shaped w) (same : w'.arrays = w.arrays) : Shaped w' :=
  shaped.of_fewer fun _ _ live => same ▸ live

/-! ## Operations on arrays -/

theorem addArray? (shaped : Shaped w) {new : Option Dense} (wf : ∀ a, new = some a → a.WellFormed) :
    Shaped (w.addArray? new).2 := by
  cases new with
  | none => exact shaped
  | some b =>
    refine ⟨fun h a live => ?_⟩
    have hget := (Table.get?_insert ..).symm.trans live
    split at hget
    · exact Option.some.inj hget ▸ wf b rfl
    · exact shaped.wf h a hget

theorem newArray (shaped : Shaped w) (type : ElementType) (dims : List Int) :
    Shaped (w.newArray type dims).2 :=
  shaped.addArray? fun _ made => (Dense.wellFormed_create? made).1

theorem newArrayByCode (shaped : Shaped w) (family : Family) (code rank : Int)
    (dims : Option (List Int)) : Shaped (w.newArrayByCode family code rank dims).2 := by
  unfold Host.newArrayByCode
  dsimp only
  split
  · exact shaped.newArray ..
  · exact shaped

theorem copyArray (shaped : Shaped w) (h : Handle) : Shaped (w.copyArray h).2 := by
  refine shaped.addArray? fun a made => ?_
  obtain ⟨b, live, rfl⟩ := Option.map_eq_some_iff.mp made
  exact (shaped.wf h b live).of_shares 0

theorem convertArray (shaped : Shaped w) (source : Handle) (target : NumericType) (method : Method)
    (tolerance : Real64) : Shaped (w.convertArray source target method tolerance).2 := by
  refine shaped.addArray? fun a made => ?_
  obtain ⟨_, _, converted⟩ := Option.bind_eq_some_iff.mp made
  exact Dense.wellFormed_convert? converted

theorem convertArrayByCode (shaped : Shaped w) (source : Handle) (target method : Int)
    (tolerance : Real64) : Shaped (w.convertArrayByCode source target method tolerance).2 := by
  unfold Host.convertArrayByCode
  split
  · exact shaped.convertArray ..
  · exact shaped

/-- Changing an array in a way that keeps it well formed. -/
theorem modify (shaped : Shaped w) (h : Handle) {f : Dense → Dense}
    (keeps : ∀ a : Dense, a.WellFormed → (f a).WellFormed) :
    Shaped { w with arrays := w.arrays.modify h f } := by
  refine ⟨fun k a live => ?_⟩
  have hget := (Table.get?_modify ..).symm.trans live
  split at hget
  · obtain ⟨b, live', rfl⟩ := Option.map_eq_some_iff.mp hget
    exact keeps b (shaped.wf _ b live')
  · exact shaped.wf k a hget

theorem freeArray (shaped : Shaped w) (h : Handle) : Shaped (w.freeArray h) := by
  refine shaped.of_fewer fun k a live => ?_
  rw [get?_arrays_freeArray] at live
  split at live
  · cases live
  · exact live

/-! ## Collections -/

theorem freeAll (shaped : Shaped w) (work : List Payload) : Shaped (w.freeAll work) := by
  refine shaped.of_fewer fun k a live => ?_
  rw [get?_arrays_freeAll] at live
  split at live
  · cases live
  · exact live

theorem appendNode (shaped : Shaped w) (c : Handle) (name : Option Bytes) (payload : Payload) :
    Shaped (w.appendNode c name payload) :=
  shaped.of_eq (arrays_appendNode ..)

section Copies

variable {nested : Handle → Host → Option Handle × Host}

theorem copyPayload (keeps : ∀ c w, Shaped w → Shaped (nested c w).2) (shaped : Shaped w)
    (p : Payload) : Shaped (Host.copyPayload nested w p).2 := by
  cases p with
  | tensor h => exact shaped.copyArray h
  | numericArray h => exact shaped.copyArray h
  | collection c => exact keeps c w shaped
  | _ => exact shaped

theorem copyNodes (keeps : ∀ c w, Shaped w → Shaped (nested c w).2) (copy : Handle)
    (shaped : Shaped w) (nodes : List Node) : Shaped (Host.copyNodes nested copy w nodes).2 := by
  fun_induction Host.copyNodes nested copy w nodes with
  | case1 w => exact shaped
  | case2 w n rest w' hcopy =>
    have hw' : Shaped w' := by simpa only [hcopy] using shaped.copyPayload keeps n.payload
    exact hw'.freeAll _
  | case3 w n rest payload w' hcopy ih =>
    have hw' : Shaped w' := by simpa only [hcopy] using shaped.copyPayload keeps n.payload
    exact ih (hw'.appendNode ..)

theorem copyCollection (shaped : Shaped w) (c : Handle) : Shaped (w.copyCollection c).2 := by
  have rule : CopyRule fun _ w r => Shaped w → Shaped r.2 :=
    { none := fun _ _ shaped => shaped
      nodes := fun hnested _ w _ _ shaped =>
        have made : Shaped w.newCollection.2 := shaped.of_eq rfl
        made.copyNodes hnested .. }
  exact rule.copyCollection w c shaped

end Copies

/-! ## Requests -/

/-- **Step lemma.** Whatever is asked of the host, its arrays stay well formed. -/
theorem answer (shaped : Shaped w) (r : Request) : Shaped (w.answer r) := by
  cases r with
  | newArray => exact shaped.newArrayByCode ..
  | hostArray => exact shaped.newArray ..
  | copyArray h => exact shaped.copyArray h
  | convertArray => exact shaped.convertArrayByCode ..
  | freeArray h => exact shaped.freeArray h
  | disownArray h =>
    have given : Shaped { w with
        arrays := w.arrays.modify h fun a => { a with shares := max (a.shares - 1) 0 } } :=
      shaped.modify h fun _ wf => wf.of_shares _
    exact given.of_eq rfl
  | shareArray h => exact shaped.modify h fun _ wf => wf.of_shares _
  | writeArray h start values => exact shaped.modify h fun _ wf => wf.overwrite start values
  | copyCollection c => exact shaped.copyCollection c
  | freeCollection c => exact shaped.freeAll _
  | addNode => exact shaped.of_eq (arrays_acceptNode ..)
  | putPacket => exact shaped.of_eq (arrays_enqueuePacket ..)
  | processLink => exact shaped.of_eq (arrays_evaluateLink ..)
  | _ => exact shaped.of_eq rfl

end Shaped

/-- **Run lemma.** After any requests in any order, the storage of every live array agrees with its
shape. -/
theorem run_shaped (requests : List Request) : Shaped (run {} requests) := by
  have kept : ∀ w : Host, w.Shaped → (w.run requests).Shaped := by
    induction requests with
    | nil => exact fun _ shaped => shaped
    | cons r rest ih => exact fun w shaped => ih _ (shaped.answer r)
  exact kept {} .empty

end Host

end Marshal
