import Marshal.Proofs.Session.Workspace

/-!
# `Proofs.Session.Detachment` — without a callback table

A detached session is cut off from its host. The library can do what it likes with the handles that
it has: nothing reaches the host, and nothing comes back. No elements can be had and no nodes, and
whatever has to be made or copied cannot be. When a table is installed again, everything reads as
before.

## Contents

* `ContainerKind.creationError`, `ContainerKind.copyError` — the errors of each kind of containers;
* `Session.CutOff`, `Session.cutOff` — what a detached session answers;
* `detached_untouched` — what a run does to it, and what is read after it.
-/

namespace Marshal

open Marshal.Host

/-- The error of a kind of containers when one cannot be made. -/
def ContainerKind.creationError : ContainerKind → String
  | .tensor => "TensorNewError"
  | .numericArray => "NumericArrayNewError"
  | .collection => "DLCreateError"

/-- The error of a kind of containers when one cannot be copied. -/
def ContainerKind.copyError : ContainerKind → String
  | .tensor => "TensorCloneError"
  | .numericArray => "NumericArrayCloneError"
  | .collection => "DLCloneError"

/-- An action fails with an error of a name, and leaves the session as it is. -/
def Act.FailsAs {α : Type} (act : Act α) (s : Session) (name : String) : Prop :=
  ∃ error, act s = .error error s ∧ error.kind.name = name

/-- **A session that is cut off from its host**: typed access yields no elements and fails for every
type that elements can have, there are no nodes to read or to bind, nothing can be made or
converted, and only what is empty can be copied. -/
structure Session.CutOff (s : Session) : Prop where
  no_elements : ∀ (c : Container) type l, c.elements type s = .ok l → l = []
  elements : ∀ (c : Container) type, type ≠ .numeric .undefined →
    ∃ fault, c.elements type s = .error fault
  elementAt : ∀ (c : Container) type position, type ≠ .numeric .undefined →
    ∃ fault, c.elementAt type position s = .error fault
  ownElements : ∀ c : Container, c.ownElements? s = .ok none
  write : ∀ (c : Container) type start values, type ≠ .numeric .undefined →
    ∃ error, c.write type start values s = .error error s
  nodes : ∀ list, s.nodes list = []
  nodeValue : ∀ n, ∃ fault, s.nodeValue n = .error fault
  bind : ∀ type n, ∃ fault, s.bind type n = .error fault
  newArray : ∀ (type : ElementType) dims,
    (Act.newArray type dims).FailsAs s type.family.containerKind.creationError
  arrayOf : ∀ (type : ElementType) dims values,
    (Act.arrayOf type dims values).FailsAs s type.family.containerKind.creationError
  newCollection : Act.newCollection.FailsAs s ContainerKind.collection.creationError
  convert : ∀ (c : Container) target method tolerance,
    (c.convert target method tolerance).FailsAs s "NumericArrayConversionError"
  copy : ∀ c : Container, c.isEmpty = false → c.copy.FailsAs s c.kind.copyError
  replaceBy : ∀ c other : Container, other.isEmpty = false →
    (c.replaceBy other).FailsAs s c.kind.copyError

namespace Session

variable {s : Session}

/-! ## Typed access -/

/-- Every type that elements can have is another one than what is reported. -/
theorem checkType_of_detached (detached : s.attached = false) {type : ElementType}
    (defined : type ≠ .numeric .undefined) (h : Handle) :
    ∃ fault, s.checkType type h = .error fault := by
  cases type with
  | tensor t =>
    have hfound : s.tensorType? h = none := by
      rw [tensorType?, ask_of_detached detached]
      rfl
    refine ⟨.tensorElement t none, ?_⟩
    simp only [checkType, hfound]
    exact if_neg (Option.some_ne_none t).symm
  | numeric t =>
    have hfound : s.numericType h = .undefined := by
      rw [numericType, ask_of_detached detached]
      rfl
    refine ⟨.numericElement t .undefined, ?_⟩
    simp only [checkType, hfound]
    exact if_neg fun hsame : NumericType.undefined = t => defined (by rw [← hsame])

theorem elements_of_detached (detached : s.attached = false) {type : ElementType}
    (defined : type ≠ .numeric .undefined) (c : Container) :
    ∃ fault, c.elements type s = .error fault := by
  obtain ⟨fault, hcheck⟩ := checkType_of_detached detached defined c.handle
  unfold Container.elements
  by_cases hempty : c.isEmpty = true
  · exact ⟨.emptyArray type.family, by rw [if_pos hempty]; rfl⟩
  · exact ⟨fault, by rw [if_neg hempty, hcheck]; rfl⟩

/-- Without a table no storage is shown, whatever the type. -/
theorem no_elements_of_detached (detached : s.attached = false) {c : Container} {type : ElementType}
    {l : List Scalar} (found : c.elements type s = .ok l) : l = [] := by
  unfold Container.elements at found
  rw [ask_of_detached detached] at found
  by_cases hempty : c.isEmpty = true
  · rw [if_pos hempty] at found
    cases found
  · rw [if_neg hempty] at found
    cases hcheck : s.checkType type c.handle with
    | error fault =>
      rw [hcheck] at found
      cases found
    | ok _ =>
      have hlength : s.length c.handle = 0 := ask_of_detached detached ..
      rw [hcheck, hlength] at found
      exact (Except.ok.inj found).symm

theorem ownElements_of_detached (detached : s.attached = false) (c : Container) :
    c.ownElements? s = .ok none := by
  have htype : s.numericType c.handle = .undefined := by
    rw [numericType, ask_of_detached detached]
    rfl
  unfold Container.ownElements?
  rw [htype]

theorem nodeValue_of_detached (detached : s.attached = false) (n : Handle) :
    ∃ fault, s.nodeValue n = .error fault := by
  unfold nodeValue nodePayload
  by_cases hnull : n = Handle.null
  · exact ⟨.nullNode, by rw [if_pos hnull]; rfl⟩
  · exact ⟨.nodeData, by rw [if_neg hnull, ask_of_detached detached]; rfl⟩

/-- A node of the erased kind is bound to no type. -/
theorem bind_of_detached (detached : s.attached = false) (type : NodeType) (n : Handle) :
    ∃ fault, s.bind type n = .error fault := by
  have hkind : s.nodeKind n = .erased := by
    rw [nodeKind, ask_of_detached detached, ite_self]
  have haccepts : type.accepts .erased = false := by
    cases type with
    | view kind _ => cases kind <;> rfl
    | _ => rfl
  unfold Session.bind
  by_cases hnull : n = Handle.null
  · exact ⟨.nullNode, by rw [if_pos hnull]; rfl⟩
  · refine ⟨.nodeKind .erased type.name, ?_⟩
    rw [if_neg hnull, hkind]
    dsimp only
    rw [haccepts]
    rfl

/-! ## Requests that are not heard -/

/-- Without a table the host's answer is the one that stands in. -/
theorem bind_request_of_detached {α β : Type} (detached : s.attached = false) (standIn : α)
    (action : Host → α × Host) (f : α → Act β) :
    (Act.request standIn action >>= f) s = f standIn s := by
  show EStateM.bind (Act.request standIn action) f s = _
  rw [EStateM.bind, Act.request, request_of_detached detached]

/-- The error of a cause has the name of its built-in kind. -/
theorem failsAs_fail {α : Type} (registered : ∃ calls, s.registry = Registry.seeded.run calls)
    (fault : Fault) : (Act.fail fault : Act α).FailsAs s fault.builtin.name := by
  obtain ⟨calls, hregistry⟩ := registered
  refine ⟨_, rfl, ?_⟩
  rw [hregistry]
  exact (Registry.Grown.run calls).name_errorOf fault

/-- What has to be made by the host is not made, which is an error. -/
theorem failsAs_request {α : Type} (detached : s.attached = false)
    (registered : ∃ calls, s.registry = Registry.seeded.run calls)
    {action : Host → Option Handle × Host} {rest : Option Handle → Act α} (fault : Fault)
    (hnone : rest none = Act.fail fault) :
    (Act.request none action >>= rest).FailsAs s fault.builtin.name := by
  obtain ⟨error, hfail, hname⟩ := failsAs_fail (α := α) registered fault
  refine ⟨error, ?_, hname⟩
  rw [bind_request_of_detached detached, hnone]
  exact hfail

end Session

/-- If the first action fails, so do both. -/
theorem Act.FailsAs.bind {α β : Type} {act : Act α} {s : Session} {name : String}
    (h : act.FailsAs s name) (f : α → Act β) : (act >>= f).FailsAs s name := by
  obtain ⟨error, hact, hname⟩ := h
  refine ⟨error, ?_, hname⟩
  simp only [Bind.bind, EStateM.bind, hact]

/-- A copy of what is not null cannot be made without a table. -/
theorem Act.failsAs_copyHandle {s : Session} (detached : s.attached = false)
    (registered : ∃ calls, s.registry = Registry.seeded.run calls) (kind : ContainerKind)
    {h : Handle} (hnull : h ≠ Handle.null) : (Act.copyHandle kind h).FailsAs s kind.copyError := by
  unfold Act.copyHandle
  rw [if_neg hnull]
  cases kind with
  | tensor => exact Session.failsAs_request detached registered (.arrayCopy .tensor) rfl
  | numericArray => exact Session.failsAs_request detached registered (.arrayCopy .numericArray) rfl
  | collection => exact Session.failsAs_request detached registered .collectionCopy rfl

/-- **A detached session is cut off.** -/
theorem Session.cutOff {s : Session} (detached : s.attached = false)
    (registered : ∃ calls, s.registry = Registry.seeded.run calls) : s.CutOff := by
  have newArray : ∀ (type : ElementType) dims,
      (Act.newArray type dims).FailsAs s type.family.containerKind.creationError := by
    intro type dims
    have hname : (Fault.arrayCreation type dims).builtin.name =
        type.family.containerKind.creationError := by cases type <;> rfl
    exact hname ▸ failsAs_request detached registered (.arrayCreation type dims) rfl
  have copies : ∀ (kind : ContainerKind) (c : Container), c.isEmpty = false →
      (Act.copyHandle kind c.handle).FailsAs s kind.copyError := fun kind c full =>
    Act.failsAs_copyHandle detached registered kind (of_decide_eq_false full)
  exact {
    no_elements := fun c type l => no_elements_of_detached detached
    elements := fun c type defined => elements_of_detached detached defined c
    elementAt := fun c type position defined => by
      obtain ⟨fault, hfault⟩ := elements_of_detached detached defined c
      exact ⟨fault, by rw [Container.elementAt, hfault]; rfl⟩
    ownElements := ownElements_of_detached detached
    write := fun c type start values defined => by
      obtain ⟨fault, hfault⟩ := elements_of_detached detached defined c
      refine ⟨s.registry.errorOf fault, ?_⟩
      show EStateM.bind (Act.read (c.elements type)) _ s = _
      rw [EStateM.bind, Act.read_eq, hfault]
    nodes := Twin.nodes_of_detached detached
    nodeValue := nodeValue_of_detached detached
    bind := bind_of_detached detached
    newArray := newArray
    arrayOf := fun type dims values => (newArray type dims).bind _
    newCollection := failsAs_request detached registered .collectionCreation rfl
    convert := fun c target method tolerance =>
      failsAs_request detached registered (.conversion target) rfl
    copy := fun c full => (copies c.kind c full).bind _
    replaceBy := fun c other full => (copies c.kind other full).bind _ }

/-! ## Runs -/

/-- **Without a callback table nothing is touched.** Whatever the library does, the session with all
that its host has stays what it was, and it stays cut off. When a table is installed again, the
session is the one that there was before the table was removed. -/
theorem detached_untouched {ws : Workspace} (detached : ws.session.attached = false)
    (registered : ∃ calls, ws.session.registry = Registry.seeded.run calls)
    (ops : List LibraryOp) :
    (ws.run ops).session = ws.session ∧ (ws.run ops).session.CutOff ∧
      ∀ s : Session, s.attached = true → s.detach = ws.session →
        Act.attach Session.tableVersion (ws.run ops).session = .ok () s := by
  have hsame := Workspace.run_of_detached detached ops
  refine ⟨hsame, hsame ▸ Session.cutOff detached registered, ?_⟩
  intro s attached hdetach
  have hback : { s.detach with attached := true } = s := by
    rw [← attached]
    rfl
  rw [hsame, ← hdetach]
  exact congrArg (EStateM.Result.ok ()) hback

/-- Handles of an array and of a list, which are written to, copied and freed. -/
def unheardOps : List LibraryOp :=
  [.adopt 0 .numericArray .manual 3, .adopt 1 .collection .manual 1,
    .move (.write 0 (.numeric .int8) 0 [.integer 7]), .move (.copy 2 0),
    .insert 1 (some "n") (.value (.integer 5)), .insert 1 none (.container .collection 2),
    .move (.drop 0), .move (.reset 1), .evaluateLink 4]

theorem detached_untouched_stocked :
    (Workspace.run ⟨stocked.detach, {}⟩ unheardOps).session = stocked.detach ∧
      Act.attach Session.tableVersion (Workspace.run ⟨stocked.detach, {}⟩ unheardOps).session =
        .ok () stocked := by
  obtain ⟨hsame, -, hback⟩ :=
    @detached_untouched ⟨stocked.detach, {}⟩ rfl ⟨[], rfl⟩ unheardOps
  exact ⟨hsame, hback stocked rfl rfl⟩

end Marshal
