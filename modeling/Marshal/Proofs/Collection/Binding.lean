import Marshal.Proofs.Container.Lockstep
import Marshal.Proofs.Session.Detachment

/-!
# `Proofs.Collection.Binding` — bound nodes agree with node values

A node is read in two ways: as a value with whatever kind it has, or bound to a type that says what is
expected of it. The two do not share their readers. A value is read at the kind of the node, and a bound
node by the reader of its type, once the type has accepted the kind. They agree for every type and for
every reference, whether it leads to a node, to none any more, or is null: a node can be bound exactly if
it has a value of an accepted kind, and what it holds then is that value as the type shows it.

## Contents

* `NodeType.project?` — a value as a type shows it;
* `NodeType.read?_eq_project?` — the two readers agree on slot contents;
* `Session.ReadsAlike` — all that both ways of reading a node have to do with each other;
* `node_reads_agree` — they agree for every type and every reference.
-/

namespace Marshal

open Marshal.Host

/-! ## Values as a type shows them -/

/-- A view of a handle that stays with the host. -/
def NodeType.viewOf (kind : ContainerKind) (constant : Bool) (h : Handle) : BoundValue :=
  .view ⟨kind, if constant then .constant else .automatic, h⟩

/-- **A value as a type shows it**; there is nothing to show of a value of another kind. -/
def NodeType.project? : NodeType → Value → Option BoundValue
  | .integer, .integer v => some (.value (.integer v))
  | .real, .real x => some (.value (.real x))
  | .boolean, .boolean b => some (.value (.boolean b))
  | .text, .text s => some (.value (.text s))
  | .complex, .complex re im => some (.value (.complex re im))
  | .sparseArray, .sparseArray h => some (.value (.sparseArray h))
  | .image, .image h => some (.value (.image h))
  | .view .tensor constant, .tensor h => some (viewOf .tensor constant h)
  | .view .numericArray constant, .numericArray h => some (viewOf .numericArray constant h)
  | .view .collection constant, .collection h => some (viewOf .collection constant h)
  | .typed, v => some (.value v)
  | _, _ => none

/-- A type shows the values whose kind it accepts. -/
theorem NodeType.isSome_project? (t : NodeType) (v : Value) :
    (t.project? v).isSome = t.accepts v.kind := by
  cases t with
  | view kind _ => cases kind <;> cases v <;> rfl
  | _ => cases v <;> rfl

/-- **The two readers agree**: slot contents of an accepted kind, read under a type, are the value of
    the contents as the type shows it. -/
theorem NodeType.read?_eq_project? {t : NodeType} {p : Payload} (accepted : t.accepts p.kind = true) :
    t.read? p.kind p = t.project? p.value := by
  cases t with
  | view kind _ => cases kind <;> cases p <;> first | rfl | cases accepted
  | _ =>
    cases p with
    | text bytes => cases bytes <;> first | rfl | cases accepted
    | _ => first | rfl | cases accepted

/-! ## Where a reference leads -/

namespace Session

variable {s : Session} {n : Handle} {node : Node}

/-- A reference leads to a node if it is not null and the host knows the node. -/
def LeadsTo (s : Session) (n : Handle) (node : Node) : Prop :=
  n ≠ Handle.null ∧ s.ask none (·.node? n) = some node

/-- The kind of a node is the one of its contents. -/
theorem nodeKind_eq (hnull : n ≠ Handle.null) :
    s.nodeKind n = ((s.ask none (·.node? n)).map (·.payload.kind)).getD .erased := by
  rw [nodeKind, if_neg hnull, ask, ask]
  split <;> rfl

namespace LeadsTo

theorem nodeKind (leads : s.LeadsTo n node) : s.nodeKind n = node.payload.kind := by
  rw [nodeKind_eq leads.1, leads.2]
  rfl

theorem nodePayload (leads : s.LeadsTo n node) : s.nodePayload n = .ok node.payload := by
  rw [Session.nodePayload, if_neg leads.1, leads.2]

/-- A node has a value, because no contents have the erased kind. -/
theorem nodeValue (leads : s.LeadsTo n node) : s.nodeValue n = .ok node.payload.value := by
  have hread : node.payload.valueAs? node.payload.kind = some node.payload.value := by
    rw [Payload.valueAs?, if_neg node.payload.kind_ne_erased, Payload.readAs_kind]
  unfold Session.nodeValue
  rw [leads.nodePayload, leads.nodeKind]
  simp only [Bind.bind, Except.bind, hread]
  rfl

/-- Binding a node gives its value as the type shows it. -/
theorem bind (leads : s.LeadsTo n node) (t : NodeType) :
    s.bind t n =
      match t.project? node.payload.value with
      | some value => .ok ⟨n, s.nodeName n, value⟩
      | none => .error (.nodeKind node.payload.kind t.name) := by
  have shown := t.isSome_project? node.payload.value
  rw [Payload.kind_value] at shown
  rw [Twin.bind_eq leads.1 leads.nodeKind leads.nodePayload]
  by_cases accepted : t.accepts node.payload.kind = true
  · obtain ⟨value, hvalue⟩ := Option.isSome_iff_exists.mp (shown.trans accepted)
    rw [if_pos accepted, NodeType.read?_eq_project? accepted, hvalue]
  · have hnone : t.project? node.payload.value = none := by
      rwa [← shown, Option.not_isSome_iff_eq_none] at accepted
    rw [if_neg accepted, hnone]

end LeadsTo

/-- No type accepts the erased kind. -/
theorem accepts_erased (t : NodeType) : t.accepts .erased = false := by
  cases t with
  | view kind _ => cases kind <;> rfl
  | _ => rfl

/-- A reference that leads to no node has no value. -/
theorem nodeValue_of_nowhere (hnull : n ≠ Handle.null) (nowhere : s.ask none (·.node? n) = none) :
    s.nodeValue n = .error .nodeData := by
  unfold nodeValue nodePayload
  rw [if_neg hnull, nowhere]
  rfl

/-- It is taken for a node of another kind. -/
theorem bind_of_nowhere (hnull : n ≠ Handle.null) (nowhere : s.ask none (·.node? n) = none)
    (t : NodeType) : s.bind t n = .error (.nodeKind .erased t.name) := by
  have hkind : s.nodeKind n = .erased := by
    rw [nodeKind_eq hnull, nowhere]
    rfl
  unfold Session.bind
  rw [if_neg hnull, hkind]
  dsimp only
  rw [accepts_erased]
  rfl

theorem bind_null (s : Session) (t : NodeType) : s.bind t Handle.null = .error .nullNode := rfl

/-- A reference is null, leads to a node, or leads nowhere. -/
theorem leadsTo_cases (s : Session) (n : Handle) :
    n = Handle.null ∨ (∃ node, s.LeadsTo n node) ∨
      (n ≠ Handle.null ∧ s.ask none (·.node? n) = none) := by
  by_cases hnull : n = Handle.null
  · exact .inl hnull
  · cases hask : s.ask none (·.node? n) with
    | none => exact .inr (.inr ⟨hnull, rfl⟩)
    | some node => exact .inr (.inl ⟨node, hnull, hask⟩)

/-- **A node is bound** exactly if it has a value that the type shows. -/
theorem bind_eq_ok_iff {t : NodeType} {b : Bound} : s.bind t n = .ok b ↔
    ∃ v, s.nodeValue n = .ok v ∧ t.project? v = some b.value ∧ b.node = n ∧
      b.name = s.nodeName n := by
  rcases s.leadsTo_cases n with rfl | ⟨node, leads⟩ | ⟨hnull, nowhere⟩
  · simp [bind_null]
  · rw [leads.bind, leads.nodeValue]
    cases hshown : t.project? node.payload.value with
    | none => simp [hshown]
    | some value =>
      constructor
      · rintro ⟨⟩
        exact ⟨_, rfl, hshown, rfl, rfl⟩
      · rintro ⟨v, ⟨⟩, hvalue, hnode, hname⟩
        obtain rfl := Option.some.inj (hshown.symm.trans hvalue)
        subst hnode
        rw [← hname]
  · simp [bind_of_nowhere hnull nowhere, nodeValue_of_nowhere hnull nowhere]

/-- The kind of a node is that of its value. -/
theorem nodeKind_of_nodeValue {v : Value} (h : s.nodeValue n = .ok v) : s.nodeKind n = v.kind := by
  rcases s.leadsTo_cases n with rfl | ⟨node, leads⟩ | ⟨hnull, nowhere⟩
  · cases h
  · rw [leads.nodeValue] at h
    cases h
    rw [leads.nodeKind, Payload.kind_value]
  · rw [nodeValue_of_nowhere hnull nowhere] at h
    cases h

/-! ## Both ways of reading a node -/

/-- **Both ways of reading agree** on a reference, under a type: binding succeeds exactly if there is a
    value of an accepted kind; what is bound is that value as the type shows it, with the name and the
    kind that the node reports, and splits into that name and that value; under the type of any value it
    is the value itself; and what fails fails in the same way for null, and on account of its kind for a
    node of another kind. Nothing changes. -/
structure ReadsAlike (s : Session) (t : NodeType) (n : Handle) : Prop where
  succeeds_iff : (∃ b, s.bind t n = .ok b) ↔
    ∃ v, s.nodeValue n = .ok v ∧ t.accepts v.kind = true
  value : ∀ b, s.bind t n = .ok b → ∃ v value, s.nodeValue n = .ok v ∧ t.project? v = some value ∧
    b.value = value ∧ b.kind s = v.kind ∧ b.parts = (s.nodeName n, value)
  reported : ∀ b, s.bind t n = .ok b → b.node = n ∧ b.name = s.nodeName n ∧ b.kind s = s.nodeKind n
  any_value : ∀ v, s.bind .typed n = .ok ⟨n, s.nodeName n, .value v⟩ ↔ s.nodeValue n = .ok v
  any_succeeds_iff : (∃ b, s.bind .typed n = .ok b) ↔ ∃ v, s.nodeValue n = .ok v
  null : n = Handle.null →
    (Act.read (·.bind t n)).FailsAs s "DLNullRawNode" ∧
      (Act.read (·.nodeValue n)).FailsAs s "DLNullRawNode"
  other_kind : ∀ node, s.LeadsTo n node → t.accepts node.payload.kind = false →
    s.bind t n = .error (.nodeKind node.payload.kind t.name) ∧
      (Act.read (·.bind t n)).FailsAs s "DLInvalidNodeType"
  nowhere : n ≠ Handle.null → (∀ node, ¬ s.LeadsTo n node) →
    (Act.read (·.bind t n)).FailsAs s "DLInvalidNodeType" ∧
      (Act.read (·.nodeValue n)).FailsAs s "DLGetNodeDataError"
  unchanged : (outcome (Act.read (·.bind t n)) s).2 = s

/-- Under the type of any value, what is bound is the value itself. -/
theorem bind_typed_iff {v : Value} :
    s.bind .typed n = .ok ⟨n, s.nodeName n, .value v⟩ ↔ s.nodeValue n = .ok v := by
  have hshown (u : Value) : NodeType.project? .typed u = some (.value u) := by cases u <;> rfl
  rw [bind_eq_ok_iff]
  constructor
  · rintro ⟨u, hu, hvalue, -, -⟩
    rw [hshown] at hvalue
    cases hvalue
    exact hu
  · exact fun hv => ⟨v, hv, hshown v, rfl, rfl⟩

/-- Reading that fails has the error of its cause. -/
theorem failsAs_read {α : Type} (registered : ∃ calls, s.registry = Registry.seeded.run calls)
    {f : Session → Except Fault α} {fault : Fault} {name : String} (failed : f s = .error fault)
    (named : fault.builtin.name = name) : (Act.read f).FailsAs s name := by
  have raised : (Act.fail fault : Act α).FailsAs s fault.builtin.name :=
    failsAs_fail registered fault
  obtain ⟨error, hfail, hname⟩ := raised
  refine ⟨error, ?_, hname.trans named⟩
  rw [Act.read, failed]
  exact hfail

end Session

/-- **Bound nodes agree with node values.** Take any session, attached to its host or not, whatever the
    host has come to, any type that nodes can be bound to, and any reference: null, to a node, or to
    nothing. Binding it and reading its value agree. -/
theorem node_reads_agree (s : Session) (registered : ∃ calls, s.registry = Registry.seeded.run calls)
    (t : NodeType) (n : Handle) : s.ReadsAlike t n := by
  constructor
  case succeeds_iff =>
    constructor
    · rintro ⟨b, hb⟩
      obtain ⟨v, hv, hvalue, -, -⟩ := Session.bind_eq_ok_iff.mp hb
      refine ⟨v, hv, ?_⟩
      rw [← t.isSome_project?, hvalue]
      rfl
    · rintro ⟨v, hv, accepted⟩
      obtain ⟨value, hvalue⟩ := Option.isSome_iff_exists.mp ((t.isSome_project? v).trans accepted)
      exact ⟨⟨n, s.nodeName n, value⟩, Session.bind_eq_ok_iff.mpr ⟨v, hv, hvalue, rfl, rfl⟩⟩
  case value =>
    intro b hb
    obtain ⟨v, hv, hvalue, rfl, hname⟩ := Session.bind_eq_ok_iff.mp hb
    have parts : b.parts = (s.nodeName b.node, b.value) := by rw [Bound.parts, hname]
    exact ⟨v, b.value, hv, hvalue, rfl, Session.nodeKind_of_nodeValue hv, parts⟩
  case reported =>
    intro b hb
    obtain ⟨v, hv, hvalue, hnode, hname⟩ := Session.bind_eq_ok_iff.mp hb
    exact ⟨hnode, hname, congrArg s.nodeKind hnode⟩
  case any_value => exact fun v => Session.bind_typed_iff
  case any_succeeds_iff =>
    constructor
    · rintro ⟨b, hb⟩
      obtain ⟨v, hv, -⟩ := Session.bind_eq_ok_iff.mp hb
      exact ⟨v, hv⟩
    · exact fun ⟨v, hv⟩ => ⟨_, Session.bind_typed_iff.mpr hv⟩
  case null =>
    rintro rfl
    exact ⟨Session.failsAs_read registered (s.bind_null t) rfl,
      Session.failsAs_read registered s.nodeValue_null rfl⟩
  case other_kind =>
    intro node leads refused
    have hnone : t.project? node.payload.value = none := by
      rw [← Option.isSome_eq_false_iff.trans Option.isNone_iff_eq_none, t.isSome_project?,
        Payload.kind_value, refused]
    have failed := leads.bind t
    rw [hnone] at failed
    exact ⟨failed, Session.failsAs_read registered failed rfl⟩
  case nowhere =>
    intro hnull nowhere
    have hask : s.ask none (·.node? n) = none :=
      Option.eq_none_iff_forall_ne_some.mpr fun node found => nowhere node ⟨hnull, found⟩
    exact ⟨Session.failsAs_read registered (Session.bind_of_nowhere hnull hask t) rfl,
      Session.failsAs_read registered (Session.nodeValue_of_nowhere hnull hask) rfl⟩
  case unchanged => rw [outcome_read]

/-- A list with a true node and a text without characters. -/
def mixedNodes : Session where
  host := run {} [.newCollection, .addNode 1 (some [97]) (.boolean 7), .addNode 1 none (.text none)]

/-- The truth value is bound as true, the text is no tensor, and the number of the list is that of no
    node. -/
theorem node_reads_agree_mixedNodes :
    mixedNodes.bind .typed 2 = .ok ⟨2, mixedNodes.nodeName 2, .value (.boolean true)⟩ ∧
    (Act.read (·.bind (.view .tensor true) 3)).FailsAs mixedNodes "DLInvalidNodeType" ∧
    (Act.read (·.nodeValue 1)).FailsAs mixedNodes "DLGetNodeDataError" := by
  have registered : ∃ calls, mixedNodes.registry = Registry.seeded.run calls := ⟨[], rfl⟩
  have agree := node_reads_agree mixedNodes registered
  have value : mixedNodes.nodeValue 2 = .ok (.boolean true) := by decide +kernel
  have leads : mixedNodes.LeadsTo 3 ⟨3, none, .text (some [])⟩ := ⟨by decide, by decide +kernel⟩
  have nowhere : ∀ node, ¬ mixedNodes.LeadsTo 1 node := by
    have gone : mixedNodes.ask none (·.node? 1) = none := by decide +kernel
    rintro node ⟨-, found⟩
    cases gone.symm.trans found
  exact ⟨((agree .boolean 2).any_value _).mpr value,
    ((agree (.view .tensor true) 3).other_kind _ leads rfl).2,
    ((agree .typed 1).nowhere (by decide) nowhere).2⟩

end Marshal
