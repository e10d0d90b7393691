import Marshal.Collection.Insert
import Marshal.Container.Array
import Marshal.Proofs.Host.Forest

/-!
# `Proofs.Container.Moves` — what actions do to ownership

An action is given some contents to own and leaves others, depending on whether it ends in a value
or in an error. `Moves before act after` says so for a host that is a forest: whatever else there
are roots, `act` takes the roots `before` away and puts the roots `after` in their place. What else
there is stays as it is, so statements about parts of an action compose to one about the whole.

## Contents

* `outcome` — what is left of an action;
* `Moves`, `Moves.bind`, `Moves.frame` — the statement, and how it composes;
* `Moves.releaseHandle`, `Moves.copyHandle`, … — handles and containers that the library owns;
* `Returns` — what is known of the values of actions.
-/

namespace Marshal

open Marshal.Host

/-! ## Outcomes -/

/-- What is left of an action: its value, unless it has failed, and the session. -/
def outcome {α : Type} (act : Act α) (s : Session) : Option α × Session :=
  match act s with
  | .ok a s => (some a, s)
  | .error _ s => (none, s)

section Outcomes

variable {α β : Type}

theorem outcome_bind (act : Act α) (f : α → Act β) (s : Session) :
    outcome (act >>= f) s =
      match outcome act s with
      | (some a, s) => outcome (f a) s
      | (none, s) => (none, s) := by
  simp only [outcome, bind, EStateM.bind]
  cases act s <;> rfl

/-- A reading has a value or an error and changes nothing. -/
theorem outcome_read (f : Session → Except Fault α) (s : Session) :
    outcome (Act.read f) s = ((f s).toOption, s) := by
  rw [outcome, Act.read_eq]
  cases f s <;> rfl

theorem outcome_request {s : Session} (attached : s.attached = true) (detached : α)
    (action : Host → α × Host) :
    outcome (Act.request detached action) s =
      (some (action s.host).1, { s with host := (action s.host).2 }) := by
  simp [outcome, Act.request, Session.request, attached]

end Outcomes

/-! ## Moves -/

/-- An action takes the roots `before` to the roots `after`, in any host that is a forest. -/
def Moves {α : Type} (before : List Payload) (act : Act α) (after : Option α → List Payload) :
    Prop :=
  ∀ (s : Session) (roots : List Payload), s.attached = true → Forest s.host (before ++ roots) →
    (outcome act s).2.attached = true ∧ Evolves s.host (outcome act s).2.host ∧
      Forest (outcome act s).2.host (after (outcome act s).1 ++ roots)

namespace Moves

variable {α β : Type} {before : List Payload} {act : Act α}

theorem pure (a : α) (after : Option α → List Payload) :
    Moves (after (some a)) (Pure.pure a) after := by
  intro s roots attached f
  exact ⟨attached, .refl _, f⟩

theorem fail (fault : Fault) (after : Option α → List Payload) :
    Moves (after none) (Act.fail fault) after := by
  intro s roots attached f
  exact ⟨attached, .refl _, f⟩

/-- One action after the other. If the first one fails nothing else happens. -/
theorem bind {m : Option α → List Payload} {f : α → Act β} {after : Option β → List Payload}
    (hact : Moves before act m) (hf : ∀ a, Moves (m (some a)) (f a) after)
    (hnone : m none = after none) : Moves before (act >>= f) after := by
  intro s roots attached forest
  obtain ⟨attached', hev, forest'⟩ := hact s roots attached forest
  rw [outcome_bind]
  rcases hout : outcome act s with ⟨_ | a, s'⟩
  · rw [hout, hnone] at forest'
    rw [hout] at attached' hev
    exact ⟨attached', hev, forest'⟩
  · rw [hout] at attached' hev forest'
    obtain ⟨attached'', hev', forest''⟩ := hf a s' roots attached' forest'
    exact ⟨attached'', hev.trans hev', forest''⟩

/-- What an action does not speak of stays. -/
theorem frame {after : Option α → List Payload} (h : Moves before act after)
    (others : List Payload) :
    Moves (others ++ before) act fun r => others ++ after r := by
  intro s roots attached forest
  have swap : ∀ ps : List Payload,
      (others ++ ps ++ roots).Perm (ps ++ (others ++ roots)) := by
    intro ps
    rw [List.append_assoc]
    exact List.perm_append_comm_assoc ..
  obtain ⟨attached', hev, forest'⟩ := h s (others ++ roots) attached (forest.perm (swap before))
  exact ⟨attached', hev, forest'.perm (swap _).symm⟩

theorem request {detached : α} {action : Host → α × Host} {after : Option α → List Payload}
    (h : ∀ w roots, Forest w (before ++ roots) →
      Evolves w (action w).2 ∧ Forest (action w).2 (after (some (action w).1) ++ roots)) :
    Moves before (Act.request detached action) after := by
  intro s roots attached forest
  rw [outcome_request attached]
  exact ⟨attached, h s.host roots forest⟩

theorem order {action : Host → Host} {after : Option Unit → List Payload}
    (h : ∀ w roots, Forest w (before ++ roots) →
      Evolves w (action w) ∧ Forest (action w) (after (some ()) ++ roots)) :
    Moves before (Act.order action) after := request h

/-! ## Handles -/

/-- A handle that the library owns is owned by nothing when it has been released, which never
    fails. -/
theorem releaseHandle (kind : ContainerKind) (h : Handle) (after : Option Unit → List Payload) :
    Moves (Payload.ofHandle kind.kind h :: after (some ())) (Act.releaseHandle kind .manual h)
      after := by
  unfold Act.releaseHandle
  split
  · next hnull =>
    intro s roots attached forest
    refine ⟨attached, .refl _, (Forest.cons_iff_of_asset_none ?_).mp forest⟩
    subst hnull
    cases kind <;> rfl
  · cases kind with
    | tensor => exact order fun w _ f => ⟨.freeArray w h, f.freeArray rfl⟩
    | numericArray => exact order fun w _ f => ⟨.freeArray w h, f.freeArray rfl⟩
    | collection => exact order fun w _ f => ⟨.freeAll w _, f.freeCollection⟩

/-- The host is asked for something new, which is owned if it has been made. -/
theorem requestOrFail {action : Host → Option Handle × Host} {k : Handle → Payload}
    {rest : Option Handle → Act α} {found : Handle → α} {fault : Fault} {payload : α → Payload}
    (h : ∀ w roots, Forest w roots →
      Evolves w (action w).2 ∧ Forest (action w).2 ((action w).1.toList.map k ++ roots))
    (hsome : ∀ h, rest (some h) = Pure.pure (found h)) (hnone : rest none = Act.fail fault)
    (hpayload : ∀ h, payload (found h) = k h) :
    Moves [] (Act.request none action >>= rest) fun r => r.toList.map payload := by
  refine bind (m := fun r => r.join.toList.map k) (request h) (fun r => ?_) rfl
  cases r with
  | none =>
    rw [hnone]
    exact fail fault fun r => r.toList.map payload
  | some h =>
    rw [hsome]
    have hk : (some (some h)).join.toList.map k = (some (found h)).toList.map payload := by
      simp [hpayload]
    rw [hk]
    exact pure (found h) fun r => r.toList.map payload

/-- A copied handle is owned by whoever has asked for it. -/
theorem copyHandle (kind : ContainerKind) (h : Handle) :
    Moves [] (Act.copyHandle kind h) fun r => r.toList.map (Payload.ofHandle kind.kind) := by
  unfold Act.copyHandle
  split
  · next hnull =>
    intro s roots attached forest
    refine ⟨attached, .refl _, (Forest.cons_iff_of_asset_none ?_).mpr forest⟩
    subst hnull
    cases kind <;> rfl
  · cases kind with
    | tensor =>
      exact requestOrFail (fun w _ f => ⟨.addArray? w _, f.addArray? _ fun _ => rfl⟩)
        (fun _ => rfl) rfl fun _ => rfl
    | numericArray =>
      exact requestOrFail (fun w _ f => ⟨.addArray? w _, f.addArray? _ fun _ => rfl⟩)
        (fun _ => rfl) rfl fun _ => rfl
    | collection =>
      exact requestOrFail (fun w _ f => ⟨.copyCollection w h, f.copyCollection h⟩)
        (fun _ => rfl) rfl fun _ => rfl

/-! ## Containers -/

/-- What is owned when an action has made a container, or has not. -/
abbrev made (r : Option Container) : List Payload := r.toList.map Container.payload

theorem newArray (type : ElementType) (dims : List Int) :
    Moves [] (Act.newArray type dims) made := by
  cases type with
  | tensor t =>
    exact requestOrFail (fun w _ f => ⟨.addArray? w _, f.addArray? _ fun _ => rfl⟩)
      (fun _ => rfl) rfl fun _ => rfl
  | numeric t =>
    exact requestOrFail (fun w _ f => ⟨.addArray? w _, f.addArray? _ fun _ => rfl⟩)
      (fun _ => rfl) rfl fun _ => rfl

theorem newCollection : Moves [] Act.newCollection made :=
  requestOrFail (k := .collection)
    (fun w _ f => ⟨.single (.collection w), f.newCollection⟩) (fun _ => rfl) rfl fun _ => rfl

theorem convert (c : Container) (target : NumericType) (method : Method)
    (tolerance : Number.Real64) : Moves [] (c.convert target method tolerance) made :=
  requestOrFail (fun w _ f => ⟨.addArray? w _, f.addArray? _ fun _ => rfl⟩)
    (fun _ => rfl) rfl fun _ => rfl

/-- A copy is owned in addition to what it is a copy of. -/
theorem copy (c : Container) : Moves [] c.copy made := by
  refine bind (copyHandle c.kind c.handle) (fun h => ?_) rfl
  exact pure (⟨c.kind, .manual, h⟩ : Container) made

theorem release {c : Container} (hmode : c.mode = .manual) (after : Option Unit → List Payload) :
    Moves (c.payload :: after (some ())) c.release after := by
  unfold Container.release
  rw [hmode]
  exact releaseHandle c.kind c.handle after

/-- What is left of a cleared container owns nothing. -/
theorem asset_payload_null {c : Container} (hnull : c.handle = Handle.null) :
    c.payload.asset = none := by
  unfold Container.payload
  rw [hnull]
  cases c.kind <;> rfl

/-- Clearing does not fail, and an empty container is left. -/
theorem clear {c : Container} (hmode : c.mode = .manual) :
    Moves [c.payload] c.clear fun r => [(r.getD c).payload] := by
  unfold Container.clear
  rw [hmode]
  refine bind (releaseHandle c.kind c.handle fun r => if r.isSome then [] else [c.payload])
    (fun _ => ?_) rfl
  · intro s roots attached forest
    exact ⟨attached, .refl _, (Forest.cons_iff_of_asset_none (asset_payload_null rfl)).mpr forest⟩

/-- **Assignment.** The copy is owned from the time on when it has been made, and the old contents as
    long as that can fail. -/
theorem replaceBy {c : Container} (hmode : c.mode = .manual) (other : Container) :
    Moves [c.payload] (c.replaceBy other) fun r => [(r.getD c).payload] := by
  unfold Container.replaceBy Container.clear
  simp only [bind_assoc, pure_bind]
  rw [hmode]
  -- the copy comes in addition to the contents, and then takes their place
  refine bind ((copyHandle c.kind other.handle).frame [c.payload]) (fun h => ?_) rfl
  refine bind (releaseHandle c.kind c.handle
    fun r => [if r.isSome then Payload.ofHandle c.kind.kind h else c.payload]) (fun _ => ?_) rfl
  · exact pure (⟨c.kind, .manual, h⟩ : Container) fun r => [(r.getD c).payload]

/-! ## Arrays with elements -/

/-- A live array shows its elements under its own type. -/
theorem elements_of_live {c : Container} {s : Session} {d : Dense} (attached : s.attached = true)
    (hnull : c.handle ≠ Handle.null) (live : s.host.arrays.get? c.handle = some d) :
    c.elements d.type s = .ok d.elements := by
  have hempty : c.isEmpty = false := by simpa [Container.isEmpty] using hnull
  have hcode : s.ask 0 (·.elementCode d.type.family c.handle) = d.type.code := by
    rw [Session.ask, if_pos attached, elementCode, live]
    cases htype : d.type <;> simp [htype, ElementType.family]
  have hcheck : s.checkType d.type c.handle = .ok () := by
    unfold Session.checkType
    cases htype : d.type with
    | tensor t =>
      rw [htype] at hcode
      have hfound : s.tensorType? c.handle = some t := by
        rw [Session.tensorType?, show s.ask 0 (·.elementCode .tensor c.handle) = _ from hcode]
        exact TensorType.ofCode?_code t
      simp [hfound]
    | numeric t =>
      rw [htype] at hcode
      have hfound : s.numericType c.handle = t := by
        rw [Session.numericType, show s.ask 0 (·.elementCode .numericArray c.handle) = _ from hcode]
        exact congrArg (·.getD .undefined) (NumericType.ofCode?_code t)
      simp [hfound]
  have hdata : s.ask none (·.dataAs? d.type c.handle) = some d.elements := by
    rw [Session.ask, if_pos attached, dataAs?, live]
    cases htype : d.type <;> simp [htype]
  unfold Container.elements
  simp [hempty, hcheck, hdata]

theorem type_create? {type : ElementType} {dims : List Int} {d : Dense}
    (h : Dense.create? type dims = some d) : d.type = type := by
  unfold Dense.create? at h
  split at h
  · cases h
  · split at h
    · cases h
    · split at h
      · cases h
      · exact congrArg Dense.type (Option.some.inj h).symm

/-- What is known of an array that has just been made. -/
theorem newArray_some {type : ElementType} {dims : List Int} {s s' : Session} {c : Container}
    (attached : s.attached = true) (hpos : 0 < s.host.nextId)
    (h : outcome (Act.newArray type dims) s = (some c, s')) :
    ∃ d : Dense, c.handle ≠ Handle.null ∧ c.mode = .manual ∧
      s'.host.arrays.get? c.handle = some d ∧ type = d.type := by
  unfold Act.newArray at h
  rw [outcome_bind, outcome_request attached] at h
  unfold Host.newArray at h
  cases hd : Dense.create? type dims with
  | none =>
    rw [hd] at h
    cases (Prod.mk.inj h).1
  | some d =>
    rw [hd] at h
    obtain ⟨hc, rfl⟩ := Prod.mk.inj h
    obtain rfl := Option.some.inj hc
    exact ⟨d, Nat.ne_of_gt hpos, rfl, Table.get?_insert_self .., (type_create? hd).symm⟩

/-- Elements that can be read can be written. -/
theorem outcome_write {c : Container} {type : ElementType} {s : Session} {elements : List Scalar}
    (attached : s.attached = true) (h : c.elements type s = .ok elements) (start : Nat)
    (values : List Scalar) : outcome (c.write type start values) s =
      (some elements.length,
        { s with host := s.host.overwriteArray c.handle start values }) := by
  rw [Container.write, outcome_bind, outcome_read, h]
  dsimp only [Except.toOption]
  rw [outcome_bind, Act.order, outcome_request attached]
  rfl

/-- **Arrays with given elements.** The array is owned as soon as it has been made, and released if
    the elements do not fit. It can be read and written in between, so it is not left over. -/
theorem arrayOf (type : ElementType) (dims : List Int) (values : List Scalar) :
    Moves [] (Act.arrayOf type dims values) made := by
  intro s roots attached forest
  obtain ⟨attached', hev, forest'⟩ := newArray type dims s roots attached forest
  rw [Act.arrayOf, outcome_bind]
  rcases hout : outcome (Act.newArray type dims) s with ⟨_ | c, s'⟩
  · rw [hout] at attached' hev forest'
    exact ⟨attached', hev, forest'⟩
  · rw [hout] at attached' hev forest'
    obtain ⟨d, hnull, hmode, live, rfl⟩ := newArray_some attached forest.next_pos hout
    have elements : c.elements d.type s' = .ok d.elements := elements_of_live attached' hnull live
    dsimp only
    rw [outcome_bind, outcome_read, elements]
    dsimp only [Except.toOption]
    split
    · -- the elements do not fit
      have hrelease : Moves [c.payload] (c.release >>= fun _ => (Act.fail
          (.elementCount d.type.family values.length d.elements.length) : Act Container)) made :=
        bind (release hmode fun _ => []) (fun _ => fail _ made) rfl
      obtain ⟨attached'', hev', forest''⟩ := hrelease s' roots attached' forest'
      exact ⟨attached'', hev.trans hev', forest''⟩
    · rw [outcome_bind, outcome_write attached' elements]
      exact ⟨attached', hev.trans (.single (.modifyArray ..)), forest'.modifyArray ..⟩

/-! ## Appending -/

/-- The target of an insertion is not null. -/
theorem not_null_of_insertionLabel {list : Handle} {name : Option String} {label : Option Text.Bytes}
    (h : insertionLabel list name = .ok label) : list ≠ Handle.null := by
  rintro rfl
  cases h

/-- **A container that is appended moves into the list.** If that fails it is released. -/
theorem pushContainer {list c : Container} (hkind : list.kind = .collection)
    (hmode : c.mode = .manual) (name : Option String) :
    Moves [c.payload, list.payload] (list.pushContainer name c) fun _ => [list.payload] := by
  have hlist : list.payload = .collection list.handle := by
    rw [Container.payload, hkind]
    rfl
  rw [hlist]
  unfold Container.pushContainer
  split
  · next label hlabel =>
    refine order fun w roots f => ⟨.acceptNode .., ?_⟩
    exact f.acceptNode List.mem_cons_self (not_null_of_insertionLabel hlabel) label
  · refine bind (release hmode fun _ => [.collection list.handle]) (fun _ => ?_) rfl
    exact fail _ fun _ => [.collection list.handle]

/-- Contents that own nothing are appended without any change of owners. -/
theorem acceptPlain {list : Handle} {payload : Payload} (hnull : list ≠ Handle.null)
    (hplain : payload.asset = none) (label : Option Text.Bytes) :
    Moves [.collection list] (Act.order (·.acceptNode list label payload))
      fun _ => [.collection list] := by
  refine order fun w roots f => ⟨.acceptNode .., ?_⟩
  exact ((Forest.cons_iff_of_asset_none hplain).mpr f).acceptNode List.mem_cons_self hnull label

/-- A number or a text is appended without any change of owners. -/
theorem pushValue {list : Container} (hkind : list.kind = .collection) {v : Value}
    (hplain : v.payload.asset = none) (name : Option String) :
    Moves [list.payload] (list.pushValue name v) fun _ => [list.payload] := by
  have hlist : list.payload = .collection list.handle := by
    rw [Container.payload, hkind]
    rfl
  rw [hlist]
  unfold Container.pushValue
  cases hlabel : insertionLabel list.handle name with
  | error fault => exact fail fault fun _ => [.collection list.handle]
  | ok label =>
    have hnull := not_null_of_insertionLabel hlabel
    rw [Act.ofExcept, pure_bind]
    cases v with
    | text s =>
      dsimp only
      split
      · exact fail _ fun _ => [.collection list.handle]
      · exact acceptPlain hnull hplain label
    | _ => exact acceptPlain hnull hplain label

end Moves

/-! ## Values -/

/-- The values of an action are all of a sort. -/
def Returns {α : Type} (act : Act α) (good : α → Prop) : Prop :=
  ∀ s a, (outcome act s).1 = some a → good a

namespace Returns

variable {α β : Type} {good : β → Prop}

theorem pure {b : β} (hb : good b) : Returns (Pure.pure b : Act β) good := by
  intro s a ha
  exact Option.some.inj ha ▸ hb

theorem fail (fault : Fault) : Returns (Act.fail fault : Act β) good := by
  intro s a ha
  cases ha

/-- The value of two actions is the value of the second one. -/
theorem bind {act : Act α} {f : α → Act β} (hf : ∀ a, Returns (f a) good) :
    Returns (act >>= f) good := by
  intro s b hb
  rw [outcome_bind] at hb
  rcases hout : outcome act s with ⟨_ | a, s'⟩
  · rw [hout] at hb
    cases hb
  · rw [hout] at hb
    exact hf a s' b hb

end Returns

/-- The library owns what is in a container. -/
def Container.IsManual (c : Container) : Prop := c.mode = .manual

namespace Returns

/-- A container for what the host has made, if it has made anything. -/
theorem ofHandle? {act : Act (Option Handle)} {rest : Option Handle → Act Container}
    {made : Handle → Container} {fault : Fault} (hsome : ∀ h, rest (some h) = Pure.pure (made h))
    (hnone : rest none = Act.fail fault) (hmode : ∀ h, (made h).IsManual) :
    Returns (act >>= rest) Container.IsManual := by
  refine bind fun r => ?_
  cases r with
  | none =>
    rw [hnone]
    exact fail fault
  | some h =>
    rw [hsome]
    exact pure (hmode h)

theorem newArray (type : ElementType) (dims : List Int) :
    Returns (Act.newArray type dims) Container.IsManual :=
  ofHandle? (fun _ => rfl) rfl fun _ => rfl

theorem newCollection : Returns Act.newCollection Container.IsManual :=
  ofHandle? (fun _ => rfl) rfl fun _ => rfl

theorem convert (c : Container) (target : NumericType) (method : Method)
    (tolerance : Number.Real64) : Returns (c.convert target method tolerance) Container.IsManual :=
  ofHandle? (fun _ => rfl) rfl fun _ => rfl

theorem copy (c : Container) : Returns c.copy Container.IsManual := bind fun _ => pure rfl

/-- A container stays the library's when it is cleared or assigned to. -/
theorem clear {c : Container} (hmode : c.IsManual) : Returns c.clear Container.IsManual :=
  bind fun _ => pure hmode

theorem replaceBy {c : Container} (hmode : c.IsManual) (other : Container) :
    Returns (c.replaceBy other) Container.IsManual := by
  unfold Container.replaceBy Container.clear
  simp only [bind_assoc, pure_bind]
  exact bind fun _ => bind fun _ => pure hmode

/-- The array with given elements is the array that has been made. -/
theorem arrayOf (type : ElementType) (dims : List Int) (values : List Scalar) :
    Returns (Act.arrayOf type dims values) Container.IsManual := by
  intro s c hc
  rw [Act.arrayOf, outcome_bind] at hc
  rcases hout : outcome (Act.newArray type dims) s with ⟨_ | c', s'⟩
  · rw [hout] at hc
    cases hc
  · rw [hout] at hc
    have hmode : c'.IsManual := newArray type dims s c' (congrArg Prod.fst hout)
    refine (bind fun present => ?_ : Returns _ Container.IsManual) s' c hc
    dsimp only
    split
    · exact bind fun _ => bind fun _ => bind fun _ => pure hmode
    · exact bind fun _ => pure hmode

end Returns

end Marshal
