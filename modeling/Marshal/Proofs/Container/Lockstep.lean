import Marshal.Collection.Bound
import Marshal.Collection.Insert
import Marshal.Container.Array
import Marshal.Proofs.Collection.Order
import Marshal.Proofs.Host.Alike

/-!
# `Proofs.Container.Lockstep` — actions of two sessions side by side

Two sessions are twins under a renaming if they have the same error kinds, are both attached or both
not, and their hosts are alike. What is read of twins is the same up to names, and an action
carried out in both, on containers that are the same up to names, ends in the same way in both: in
values that are the same up to names or in one error, and in twins again.

## Contents

* `Session.Twin`, `Session.Follows` — twins, and twins gone on alike;
* `Container.Renamed`, `Value.Renamed`, `Bound.Renamed`, `Agree` — what is read, up to names;
* `Session.Twin.elements`, `Session.Twin.told`, `Session.Twin.bindNode`, … — reading;
* `Container.Alike` — all that is observed of a container;
* `Act.Lockstep` — actions side by side, with a rule for each way to build one;
* `Act.Lockstep.copyHandle`, `Act.Lockstep.pushContainer`, … — handles and containers.
-/

namespace Marshal

open Marshal.Host Marshal.Text

/-! ## Twins -/

/-- **Two sessions are twins** under a renaming. -/
structure Session.Twin (R : Renaming) (s s' : Session) : Prop where
  host : Alike R s.host s'.host
  attached : s.attached = s'.attached
  registry : s.registry = s'.registry

/-- Two sessions have gone on alike. -/
structure Session.Follows (R : Renaming) (s s' : Session) (R₁ : Renaming) (t t' : Session) :
    Prop where
  host : Host.Follows R s.host s'.host R₁ t.host t'.host
  attached : t.attached = s.attached
  attached' : t'.attached = s'.attached
  registry : t.registry = s.registry
  registry' : t'.registry = s'.registry

namespace Session.Follows

variable {R R₁ R₂ : Renaming} {s s' t t' v v' : Session}

theorem twin (f : Session.Follows R s s' R₁ t t') (m : s.Twin R s') : t.Twin R₁ t' where
  host := f.host.alike
  attached := by rw [f.attached, f.attached', m.attached]
  registry := by rw [f.registry, f.registry', m.registry]

theorem refl (m : s.Twin R s') : Session.Follows R s s' R s s' := ⟨.refl m.host, rfl, rfl, rfl, rfl⟩

theorem trans (f : Session.Follows R s s' R₁ t t') (g : Session.Follows R₁ t t' R₂ v v') :
    Session.Follows R s s' R₂ v v' where
  host := f.host.trans g.host
  attached := g.attached.trans f.attached
  attached' := g.attached'.trans f.attached'
  registry := g.registry.trans f.registry
  registry' := g.registry'.trans f.registry'

end Session.Follows

/-! ## The same up to names -/

/-- Containers that are the same up to names. -/
structure Container.Renamed (R : Renaming) (c d : Container) : Prop where
  kind : c.kind = d.kind
  mode : c.mode = d.mode
  handle : R c.handle d.handle

/-- Values that are the same up to the names of what the host stores. -/
inductive Value.Renamed (R : Renaming) : Value → Value → Prop
  | plain {v : Value} (taken : v.payload.stored = none) : Renamed R v v
  | tensor {h k : Handle} (paired : R h k) : Renamed R (.tensor h) (.tensor k)
  | numericArray {h k : Handle} (paired : R h k) : Renamed R (.numericArray h) (.numericArray k)
  | collection {c d : Handle} (paired : R c d) : Renamed R (.collection c) (.collection d)

/-- What bound nodes hold, up to names. -/
inductive BoundValue.Renamed (R : Renaming) : BoundValue → BoundValue → Prop
  | value {v v' : Value} (h : v.Renamed R v') : Renamed R (.value v) (.value v')
  | view {c d : Container} (h : c.Renamed R d) : Renamed R (.view c) (.view d)

/-- Bound nodes that are the same up to names. -/
structure Bound.Renamed (R : Renaming) (b b' : Bound) : Prop where
  node : R b.node b'.node
  name : b.name = b'.name
  value : b.value.Renamed R b'.value

/-- Two readings fail for one cause or have values that go together. -/
inductive Agree {α β : Type} (good : α → β → Prop) : Except Fault α → Except Fault β → Prop
  | ok {a : α} {b : β} (h : good a b) : Agree good (.ok a) (.ok b)
  | error (fault : Fault) : Agree good (.error fault) (.error fault)

/-- Equal readings agree. -/
theorem Agree.of_eq {α : Type} {r r' : Except Fault α} (h : r = r') :
    Agree (fun a b => a = b) r r' := by
  subst h
  cases r with
  | ok a => exact .ok rfl
  | error fault => exact .error fault

section Renamed

variable {R R₁ : Renaming}

theorem Container.Renamed.mono {c d : Container} (grows : ∀ h k, R h k → R₁ h k)
    (hc : c.Renamed R d) : c.Renamed R₁ d := ⟨hc.kind, hc.mode, grows _ _ hc.handle⟩

theorem Container.Renamed.payload {c d : Container} (hc : c.Renamed R d) :
    c.payload.Renamed R d.payload := by
  unfold Container.payload
  rw [hc.kind]
  exact .ofHandle d.kind hc.handle

/-- Contents that are the same up to names are read as values that are so. -/
theorem Payload.Renamed.value {p q : Payload} (hp : p.Renamed R q) : p.value.Renamed R q.value := by
  cases hp with
  | tensor paired => exact .tensor paired
  | numericArray paired => exact .numericArray paired
  | collection paired => exact .collection paired
  | plain taken =>
    refine .plain ?_
    cases p with
    | text b => cases b <;> rfl
    | tensor h => cases taken
    | numericArray h => cases taken
    | collection c => cases taken
    | _ => rfl

/-- The handles in slots of a container kind go together. -/
theorem Payload.Renamed.handle {p q : Payload} (hp : p.Renamed R q) {kind : ContainerKind}
    (hkind : p.kind = kind.kind) : R p.handle q.handle := by
  cases hp with
  | tensor paired => exact paired
  | numericArray paired => exact paired
  | collection paired => exact paired
  | plain taken =>
    cases p with
    | tensor h => cases taken
    | numericArray h => cases taken
    | collection c => cases taken
    | _ => cases kind <;> cases hkind

/-- What a type shows of contents that it accepts. -/
theorem NodeType.read?_renamed {t : NodeType} {p q : Payload} (hp : p.Renamed R q)
    (accepted : t.accepts p.kind = true) :
    Option.Rel (BoundValue.Renamed R) (t.read? p.kind p) (t.read? q.kind q) := by
  have hread : ∀ k, p.kind = k → p.readAs k = p ∧ q.readAs k = q := by
    rintro k rfl
    exact ⟨p.readAs_kind, hp.kind_eq ▸ q.readAs_kind⟩
  cases t with
  | view kind constant =>
    have hkind : p.kind = kind.kind := eq_of_beq accepted
    obtain ⟨hp', hq'⟩ := hread _ hkind
    unfold NodeType.read?
    dsimp only
    rw [hp', hq']
    exact .some (.view ⟨rfl, rfl, hp.handle hkind⟩)
  | typed =>
    unfold NodeType.read? Payload.valueAs?
    rw [if_neg p.kind_ne_erased, if_neg q.kind_ne_erased, p.readAs_kind, q.readAs_kind]
    exact .some (.value hp.value)
  | _ =>
    obtain ⟨hp', hq'⟩ := hread _ (eq_of_beq accepted)
    unfold NodeType.read?
    dsimp only [NodeType.kind?, Option.map]
    rw [hp', hq']
    exact .some (.value hp.value)

end Renamed

/-! ## Reading -/

/-- What is told about two nodes is the same up to names. -/
structure Session.Told (R : Renaming) (s s' : Session) (n n' : Handle) : Prop where
  paired : R n n'
  name : s.nodeName n = s'.nodeName n'
  kind : s.nodeKind n = s'.nodeKind n'
  value : Agree (Value.Renamed R) (s.nodeValue n) (s'.nodeValue n')
  bound : ∀ type, Agree (Bound.Renamed R) (s.bind type n) (s'.bind type n')

namespace Session.Twin

variable {R : Renaming} {s s' : Session} {h k : Handle} {c d : Container}

/-- The hosts of twins are asked alike. -/
theorem ask (m : s.Twin R s') {α : Type} (detached : α) {question question' : Host → α}
    (same : question s.host = question' s'.host) :
    s.ask detached question = s'.ask detached question' := by
  unfold Session.ask
  rw [m.attached, same]

theorem isLive (m : s.Twin R s') (paired : R h k) : s.host.isLive h = s'.host.isLive k := by
  have hcollections : s.host.collections.contains h = s'.host.collections.contains k := by
    unfold Table.contains
    cases found : s.host.collections.get? h with
    | none => rw [m.host.no_nodes paired found]
    | some nodes =>
      obtain ⟨nodes', found', -⟩ := m.host.nodes paired found
      rw [found']
      rfl
  obtain ⟨hlink, hlink'⟩ := m.host.unlinked h k paired
  unfold Host.isLive
  rw [hcollections]
  unfold Table.contains
  rw [m.host.arrays h k paired, hlink, hlink']

theorem shareCount (m : s.Twin R s') (paired : R h k) (kind : ContainerKind) :
    s.shareCount kind h = s'.shareCount kind k := by
  have hask : s.ask 0 (·.shareCount h) = s'.ask 0 (·.shareCount k) := by
    refine m.ask 0 ?_
    rw [Host.shareCount, Host.shareCount, m.host.arrays h k paired]
  unfold Session.shareCount
  rw [hask]
  simp only [m.host.null_iff paired]

theorem elementCode (m : s.Twin R s') (paired : R h k) (family : Family) :
    s.ask 0 (·.elementCode family h) = s'.ask 0 (·.elementCode family k) := by
  refine m.ask 0 ?_
  rw [Host.elementCode, Host.elementCode, m.host.arrays h k paired]

theorem tensorType? (m : s.Twin R s') (paired : R h k) : s.tensorType? h = s'.tensorType? k := by
  unfold Session.tensorType?
  rw [m.elementCode paired]

theorem numericType (m : s.Twin R s') (paired : R h k) : s.numericType h = s'.numericType k := by
  unfold Session.numericType
  rw [m.elementCode paired]

theorem rank (m : s.Twin R s') (paired : R h k) : s.rank h = s'.rank k := by
  refine m.ask 0 ?_
  rw [Host.rank, Host.rank, m.host.arrays h k paired]

theorem dims (m : s.Twin R s') (paired : R h k) : s.dims h = s'.dims k := by
  have hask : s.ask none (·.dims? h) = s'.ask none (·.dims? k) := by
    refine m.ask none ?_
    rw [Host.dims?, Host.dims?, m.host.arrays h k paired]
  unfold Session.dims
  rw [hask]

theorem length (m : s.Twin R s') (paired : R h k) : s.length h = s'.length k := by
  refine m.ask 0 ?_
  rw [Host.length, Host.length, m.host.arrays h k paired]

theorem dataAs? (m : s.Twin R s') (paired : R h k) (type : ElementType) :
    s.ask none (·.dataAs? type h) = s'.ask none (·.dataAs? type k) := by
  refine m.ask none ?_
  rw [Host.dataAs?, Host.dataAs?, m.host.arrays h k paired]

theorem hasData (m : s.Twin R s') (paired : R h k) (family : Family) :
    s.hasData family h = s'.hasData family k := by
  unfold Session.hasData
  simp only [m.tensorType? paired, m.dataAs? paired]

theorem isEmpty (m : s.Twin R s') (hc : c.Renamed R d) : c.isEmpty = d.isEmpty := by
  unfold Container.isEmpty
  simp only [m.host.null_iff hc.handle]

/-- **Elements.** Twins show the same ones, or give the same cause for not showing them. -/
theorem elements (m : s.Twin R s') (hc : c.Renamed R d) (type : ElementType) :
    c.elements type s = d.elements type s' := by
  have hcheck : s.checkType type c.handle = s'.checkType type d.handle := by
    unfold Session.checkType
    simp only [m.tensorType? hc.handle, m.numericType hc.handle]
  unfold Container.elements
  rw [m.isEmpty hc, hcheck, m.dataAs? hc.handle, m.length hc.handle]

theorem ownElements? (m : s.Twin R s') (hc : c.Renamed R d) :
    c.ownElements? s = d.ownElements? s' := by
  unfold Container.ownElements?
  rw [m.numericType hc.handle]
  simp only [m.elements hc]

theorem elementAt (m : s.Twin R s') (hc : c.Renamed R d) (type : ElementType)
    (position : List Int) : c.elementAt type position s = d.elementAt type position s' := by
  unfold Container.elementAt
  rw [m.elements hc, m.dims hc.handle]

theorem collectionLength (m : s.Twin R s') (paired : R h k) :
    s.collectionLength h = s'.collectionLength k := by
  have hask : s.ask 0 (·.collectionLength h) = s'.ask 0 (·.collectionLength k) := by
    refine m.ask 0 ?_
    unfold Host.collectionLength
    cases found : s.host.collections.get? h with
    | none => rw [m.host.no_nodes paired found]
    | some nodes =>
      obtain ⟨nodes', found', hnodes⟩ := m.host.nodes paired found
      rw [found', Option.map_some, Option.map_some, hnodes.length_eq]
  unfold Session.collectionLength
  rw [hask]
  simp only [m.host.null_iff paired]

/-- The nodes that the hosts have in paired collections. -/
theorem nodesOf (m : s.Twin R s') (paired : R h k) :
    List.Forall₂ (Node.Renamed R) (s.host.nodesOf h) (s'.host.nodesOf k) := by
  unfold Host.nodesOf
  cases found : s.host.collections.get? h with
  | none =>
    rw [m.host.no_nodes paired found]
    exact .nil
  | some nodes =>
    obtain ⟨nodes', found', hnodes⟩ := m.host.nodes paired found
    rw [found']
    exact hnodes

/-- A detached session reads no nodes. -/
theorem nodes_of_detached {s : Session} (detached : s.attached = false) (h : Handle) :
    s.nodes h = [] := by
  have hlength : s.collectionLength h = 0 := by
    unfold Session.collectionLength
    rw [Session.ask_of_detached detached, ite_self]
  unfold Session.nodes
  rw [hlength]
  rfl

/-- Binding a node whose contents are known. -/
theorem bind_eq {s : Session} {n : Handle} {p : Payload} (hnull : n ≠ Handle.null)
    (kind : s.nodeKind n = p.kind) (payload : s.nodePayload n = .ok p) (type : NodeType) :
    s.bind type n =
      if type.accepts p.kind = true then
        match type.read? p.kind p with
        | some value => .ok ⟨n, s.nodeName n, value⟩
        | none => .error (.nodeWithoutValue p.kind)
      else .error (.nodeKind p.kind type.name) := by
  unfold Session.bind
  rw [if_neg hnull, kind, payload]
  dsimp only
  split
  · rfl
  · rfl

/-- Nodes that are the same up to names are told the same about, whatever type they are bound to. -/
theorem told_of_mem (m : s.Twin R s') (attached : s.attached = true) {n n' : Node}
    (mem : n ∈ s.host.nodesOf h) (mem' : n' ∈ s'.host.nodesOf k) (hn : n.Renamed R n') :
    Told R s s' n.id n'.id := by
  obtain ⟨made, past⟩ := m.host.history
  obtain ⟨made', past'⟩ := m.host.history'
  have attached' : s'.attached = true := m.attached.symm.trans attached
  have hname := Session.nodeName_of_mem attached past.sound mem
  have hname' := Session.nodeName_of_mem attached' past'.sound mem'
  have hkind := Session.nodeKind_of_mem attached past.sound mem
  have hkind' := Session.nodeKind_of_mem attached' past'.sound mem'
  constructor
  case paired => exact hn.id
  case name => rw [hname, hname', hn.name]
  case kind => rw [hkind, hkind', hn.payload.kind_eq]
  case value =>
    rw [Session.nodeValue_of_mem attached past.sound mem,
      Session.nodeValue_of_mem attached' past'.sound mem']
    exact .ok hn.payload.value
  case bound =>
    intro type
    have hpayload := Session.nodePayload_of_mem attached past.sound mem
    have hpayload' := Session.nodePayload_of_mem attached' past'.sound mem'
    -- both nodes have contents of one kind, so the type accepts both or neither
    rw [bind_eq (past.sound.node_not_null mem) hkind hpayload,
      bind_eq (past'.sound.node_not_null mem') hkind' hpayload', ← hn.payload.kind_eq, hname, hname',
      hn.name]
    split
    · next accepted =>
      have hread := NodeType.read?_renamed hn.payload accepted
      rw [← hn.payload.kind_eq] at hread
      generalize type.read? n.payload.kind n.payload = r at hread ⊢
      generalize type.read? n.payload.kind n'.payload = r' at hread ⊢
      cases hread with
      | none => exact .error _
      | some hvalue => exact .ok ⟨hn.id, rfl, hvalue⟩
    · exact .error _

/-- **Nodes.** Twins tell the same about the nodes of paired collections, one after the other. -/
theorem told (m : s.Twin R s') (paired : R h k) :
    List.Forall₂ (Told R s s') (s.nodes h) (s'.nodes k) := by
  cases hattached : s.attached with
  | false =>
    rw [nodes_of_detached hattached, nodes_of_detached (m.attached.symm.trans hattached)]
    exact .nil
  | true =>
    obtain ⟨made, past⟩ := m.host.history
    obtain ⟨made', past'⟩ := m.host.history'
    have hnodes := m.nodesOf paired
    rw [(Session.listed hattached past.sound h).nodes,
      (Session.listed (m.attached.symm.trans hattached) past'.sound k).nodes,
      List.forall₂_map_left_iff, List.forall₂_map_right_iff]
    refine List.forall₂_iff_get.mpr ⟨hnodes.length_eq, fun i hi hi' => ?_⟩
    exact m.told_of_mem hattached (List.get_mem ..) (List.get_mem ..) (hnodes.get hi hi')

/-- The ends of paired collections go together. -/
theorem ends (m : s.Twin R s') (paired : R h k) :
    R (s.front h) (s'.front k) ∧ R (s.back h) (s'.back k) := by
  have hnull : R Handle.null Handle.null := m.host.null
  cases hattached : s.attached with
  | false =>
    have hattached' : s'.attached = false := m.attached.symm.trans hattached
    unfold Session.front Session.back
    rw [Session.ask_of_detached hattached, Session.ask_of_detached hattached',
      Session.ask_of_detached hattached, Session.ask_of_detached hattached', ite_self, ite_self]
    exact ⟨hnull, hnull⟩
  | true =>
    have hattached' : s'.attached = true := m.attached.symm.trans hattached
    obtain ⟨made, past⟩ := m.host.history
    obtain ⟨made', past'⟩ := m.host.history'
    have hends : ∀ {l l' : List Node}, List.Forall₂ (Node.Renamed R) l l' →
        R (handleOf l[0]?) (handleOf l'[0]?) := by
      intro l l' hl
      cases hl with
      | nil => exact hnull
      | cons hn => exact hn.id
    have hnodes := m.nodesOf paired
    -- the last node is the first one of the reversed list
    rw [Session.front_eq hattached past.sound, Session.front_eq hattached' past'.sound,
      Session.back_eq hattached past.sound, Session.back_eq hattached' past'.sound,
      List.getLast?_eq_head?_reverse, List.getLast?_eq_head?_reverse, List.head?_eq_getElem?,
      List.head?_eq_getElem?]
    exact ⟨hends hnodes, hends (List.rel_reverse hnodes)⟩

/-- The node with a number is bound alike, and no node beyond the last one. -/
theorem bindNode (m : s.Twin R s') (paired : R h k) (type : NodeType) (i : Nat) :
    Agree (Bound.Renamed R) (s.bind type ((s.nodes h)[i]?.getD Handle.null))
      (s'.bind type ((s'.nodes k)[i]?.getD Handle.null)) := by
  have htold := m.told paired
  by_cases hi : i < (s.nodes h).length
  · have hi' : i < (s'.nodes k).length := htold.length_eq ▸ hi
    rw [List.getElem?_eq_getElem hi, List.getElem?_eq_getElem hi']
    exact (htold.get hi hi').bound type
  · have hi' : ¬ i < (s'.nodes k).length := htold.length_eq ▸ hi
    rw [List.getElem?_eq_none (Nat.not_lt.mp hi), List.getElem?_eq_none (Nat.not_lt.mp hi')]
    exact .error _

end Session.Twin

/-- **All that is observed of two containers is the same**, up to the names of handles. -/
structure Container.Alike (R : Renaming) (s s' : Session) (c d : Container) : Prop where
  renamed : c.Renamed R d
  isEmpty : c.isEmpty = d.isEmpty
  isLive : s.host.isLive c.handle = s'.host.isLive d.handle
  shares : c.shareCount s = d.shareCount s'
  tensorType : s.tensorType? c.handle = s'.tensorType? d.handle
  numericType : s.numericType c.handle = s'.numericType d.handle
  rank : s.rank c.handle = s'.rank d.handle
  dims : s.dims c.handle = s'.dims d.handle
  length : s.length c.handle = s'.length d.handle
  hasData : ∀ family, s.hasData family c.handle = s'.hasData family d.handle
  elements : ∀ type, c.elements type s = d.elements type s'
  ownElements : c.ownElements? s = d.ownElements? s'
  elementAt : ∀ type position, c.elementAt type position s = d.elementAt type position s'
  collectionLength : s.collectionLength c.handle = s'.collectionLength d.handle
  front : R (s.front c.handle) (s'.front d.handle)
  back : R (s.back c.handle) (s'.back d.handle)
  nodes : List.Forall₂ (Session.Told R s s') (s.nodes c.handle) (s'.nodes d.handle)

/-- Twins show the same of containers that are the same. -/
theorem Session.Twin.alike {R : Renaming} {s s' : Session} {c d : Container} (m : s.Twin R s')
    (hc : c.Renamed R d) : c.Alike R s s' d where
  renamed := hc
  isEmpty := m.isEmpty hc
  isLive := m.isLive hc.handle
  shares := by
    unfold Container.shareCount
    rw [hc.kind]
    exact m.shareCount hc.handle d.kind
  tensorType := m.tensorType? hc.handle
  numericType := m.numericType hc.handle
  rank := m.rank hc.handle
  dims := m.dims hc.handle
  length := m.length hc.handle
  hasData := m.hasData hc.handle
  elements := m.elements hc
  ownElements := m.ownElements? hc
  elementAt := m.elementAt hc
  collectionLength := m.collectionLength hc.handle
  front := (m.ends hc.handle).1
  back := (m.ends hc.handle).2
  nodes := m.told hc.handle

/-! ## Actions side by side -/

namespace Act

variable {α β α' β' : Type} {R R₁ : Renaming} {s s' t t' : Session}
  {good : Renaming → α → β → Prop}

/-- Two actions have ended alike: in values that go together or in one error. -/
inductive Together (R : Renaming) (s s' : Session) (good : Renaming → α → β → Prop) :
    EStateM.Result Raised Session α → EStateM.Result Raised Session β → Prop
  | ok {R₁ : Renaming} {a : α} {b : β} {t t' : Session} (follows : Session.Follows R s s' R₁ t t')
      (h : good R₁ a b) : Together R s s' good (.ok a t) (.ok b t')
  | error {R₁ : Renaming} {e : Raised} {t t' : Session}
      (follows : Session.Follows R s s' R₁ t t') : Together R s s' good (.error e t) (.error e t')

/-- **Two actions go on side by side**: started in twins, they end alike. -/
def Lockstep (R : Renaming) (act : Act α) (act' : Act β) (good : Renaming → α → β → Prop) : Prop :=
  ∀ s s', s.Twin R s' → Together R s s' good (act s) (act' s')

/-- What ends alike after something that has gone on alike, ends alike. -/
theorem Together.after {r : EStateM.Result Raised Session α} {r' : EStateM.Result Raised Session β}
    (follows : Session.Follows R s s' R₁ t t') (h : Together R₁ t t' good r r') :
    Together R s s' good r r' := by
  cases h with
  | ok next hgood => exact .ok (follows.trans next) hgood
  | error next => exact .error (follows.trans next)

namespace Lockstep

variable {act : Act α} {act' : Act β}

theorem pure {a : α} {b : β} (h : good R a b) : Lockstep R (Pure.pure a) (Pure.pure b) good := by
  intro s s' m
  exact .ok (.refl m) h

theorem fail (fault : Fault) : Lockstep R (Act.fail fault) (Act.fail fault) good := by
  intro s s' m
  unfold Act.fail
  rw [m.registry]
  exact .error (.refl m)

/-- One action after the other. The second pair starts under a renaming that has grown. -/
theorem bind {m : Renaming → α → β → Prop} {f : α → Act α'} {f' : β → Act β'}
    {good : Renaming → α' → β' → Prop} (hact : Lockstep R act act' m)
    (hf : ∀ R₁ a b, (∀ h k, R h k → R₁ h k) → m R₁ a b → Lockstep R₁ (f a) (f' b) good) :
    Lockstep R (act >>= f) (act' >>= f') good := by
  intro s s' twins
  have hfirst := hact s s' twins
  show Together R s s' good (EStateM.bind act f s) (EStateM.bind act' f' s')
  unfold EStateM.bind
  generalize act s = r at hfirst ⊢
  generalize act' s' = r' at hfirst ⊢
  cases hfirst with
  | ok follows h =>
    exact .after follows (hf _ _ _ follows.host.grows h _ _ (follows.twin twins))
  | error follows => exact .error follows

/-- The hosts are asked for something, and are both there or both not. -/
theorem request {detached : α} {good : Renaming → α → α → Prop} {action action' : Host → α × Host}
    (hdetached : good R detached detached)
    (h : ∀ w w', Alike R w w' → ∃ R₁, Host.Follows R w w' R₁ (action w).2 (action' w').2 ∧
      good R₁ (action w).1 (action' w').1) :
    Lockstep R (Act.request detached action) (Act.request detached action') good := by
  intro s s' m
  unfold Act.request Session.request
  by_cases attached : s.attached = true
  · have attached' : s'.attached = true := m.attached.symm.trans attached
    rw [if_pos attached, if_pos attached']
    obtain ⟨R₁, follows, hgood⟩ := h s.host s'.host m.host
    exact .ok ⟨follows, rfl, rfl, rfl, rfl⟩ hgood
  · have detached' : ¬ s'.attached = true := fun h => attached (m.attached.trans h)
    rw [if_neg attached, if_neg detached']
    exact .ok (.refl m) hdetached

theorem order {action action' : Host → Host}
    (h : ∀ w w', Alike R w w' → ∃ R₁, Host.Follows R w w' R₁ (action w) (action' w')) :
    Lockstep R (Act.order action) (Act.order action') fun _ _ _ => True := by
  refine request trivial fun w w' m => ?_
  obtain ⟨R₁, follows⟩ := h w w' m
  exact ⟨R₁, follows, trivial⟩

theorem read {f : Session → Except Fault α} {f' : Session → Except Fault β}
    (h : ∀ s s', s.Twin R s' → Agree (good R) (f s) (f' s')) :
    Lockstep R (Act.read f) (Act.read f') good := by
  intro s s' m
  rw [Act.read_eq, Act.read_eq, m.registry]
  generalize hr : f s = r
  generalize hr' : f' s' = r'
  have hagree := h s s' m
  rw [hr, hr'] at hagree
  cases hagree with
  | ok hgood => exact .ok (.refl m) hgood
  | error fault => exact .error (.refl m)

/-- Something is made of what the hosts have made, if they have made anything. -/
theorem ofHandle? {act act' : Act (Option Handle)} {rest : Option Handle → Act α} {make : Handle → α}
    {fault : Fault} {good : Renaming → α → α → Prop}
    (hact : Lockstep R act act' fun R₁ => Option.Rel R₁)
    (hsome : ∀ h, rest (some h) = Pure.pure (make h)) (hnone : rest none = Act.fail fault)
    (hmake : ∀ (R₁ : Renaming) h k, R₁ h k → good R₁ (make h) (make k)) :
    Lockstep R (act >>= rest) (act' >>= rest) good := by
  refine bind hact fun R₁ made made' _ hmade => ?_
  cases hmade with
  | none =>
    rw [hnone]
    exact fail fault
  | some paired =>
    rw [hsome, hsome]
    exact pure (hmake _ _ _ paired)

/-! ## Handles -/

variable {h k : Handle}

theorem releaseHandle (kind : ContainerKind) (mode : Passing) (paired : R h k) :
    Lockstep R (Act.releaseHandle kind mode h) (Act.releaseHandle kind mode k)
      fun _ _ _ => True := by
  intro s s' m
  unfold Act.releaseHandle
  by_cases hnull : h = Handle.null
  · rw [if_pos hnull, if_pos ((m.host.null_iff paired).mp hnull)]
    exact pure trivial s s' m
  · rw [if_neg hnull, if_neg fun hk => hnull ((m.host.null_iff paired).mpr hk)]
    have freed : Lockstep R (Act.order (·.freeArray h)) (Act.order (·.freeArray k))
        fun _ _ _ => True := order fun _ _ m => ⟨R, m.freeArray paired⟩
    have disowned : Lockstep R (Act.order (·.disownArray h)) (Act.order (·.disownArray k))
        fun _ _ _ => True := order fun _ _ m => ⟨R, m.disownArray paired⟩
    cases mode with
    | automatic => exact pure trivial s s' m
    | constant => exact pure trivial s s' m
    | manual =>
      cases kind with
      | collection => exact order (fun _ _ m => ⟨R, m.freeCollection paired⟩) s s' m
      | tensor => exact freed s s' m
      | numericArray => exact freed s s' m
    | shared =>
      cases kind with
      | collection => exact pure trivial s s' m
      | tensor => exact disowned s s' m
      | numericArray => exact disowned s s' m

/-- A copied handle goes together with a copied handle. -/
theorem copyHandle (kind : ContainerKind) (paired : R h k) :
    Lockstep R (Act.copyHandle kind h) (Act.copyHandle kind k) fun R₁ => R₁ := by
  intro s s' m
  unfold Act.copyHandle
  by_cases hnull : h = Handle.null
  · rw [if_pos hnull, if_pos ((m.host.null_iff paired).mp hnull)]
    exact pure paired s s' m
  · rw [if_neg hnull, if_neg fun hk => hnull ((m.host.null_iff paired).mpr hk)]
    have copied : Lockstep R (Act.request none (·.copyArray h)) (Act.request none (·.copyArray k))
        fun R₁ => Option.Rel R₁ := request .none fun _ _ m => m.copyArray paired
    have copied' : Lockstep R (Act.request none (·.copyCollection h))
        (Act.request none (·.copyCollection k)) fun R₁ => Option.Rel R₁ :=
      request .none fun _ _ m => m.copyCollection paired
    refine (?_ : Lockstep R _ _ fun R₁ => R₁) s s' m
    cases kind with
    | collection => exact ofHandle? copied' (fun _ => rfl) rfl fun _ _ _ hk => hk
    | tensor => exact ofHandle? copied (fun _ => rfl) rfl fun _ _ _ hk => hk
    | numericArray => exact ofHandle? copied (fun _ => rfl) rfl fun _ _ _ hk => hk

/-! ## Containers -/

variable {c d : Container}

/-- Containers that an action makes, up to names. -/
abbrev containers (R₁ : Renaming) : Container → Container → Prop := Container.Renamed R₁

theorem newArray (type : ElementType) (dims : List Int) :
    Lockstep R (Act.newArray type dims) (Act.newArray type dims) containers :=
  ofHandle? (request .none fun _ _ m => m.addArray? _) (fun _ => rfl) rfl
    fun _ _ _ paired => ⟨rfl, rfl, paired⟩

theorem newCollection : Lockstep R Act.newCollection Act.newCollection containers := by
  refine ofHandle? (request .none fun _ _ m => ?_) (fun _ => rfl) rfl
    fun _ _ _ paired => ⟨rfl, rfl, paired⟩
  exact ⟨_, m.newCollection, .some (.inr ⟨rfl, rfl⟩)⟩

theorem convert (hc : c.Renamed R d) (target : NumericType) (method : Method)
    (tolerance : Number.Real64) :
    Lockstep R (c.convert target method tolerance) (d.convert target method tolerance) containers :=
  ofHandle? (request .none fun _ _ m => m.convertArray hc.handle target method tolerance)
    (fun _ => rfl) rfl fun _ _ _ paired => ⟨rfl, rfl, paired⟩

theorem copy (hc : c.Renamed R d) : Lockstep R c.copy d.copy containers := by
  unfold Container.copy
  rw [hc.kind]
  exact bind (copyHandle d.kind hc.handle) fun _ _ _ _ paired => pure ⟨rfl, rfl, paired⟩

theorem release (hc : c.Renamed R d) : Lockstep R c.release d.release fun _ _ _ => True := by
  unfold Container.release
  rw [hc.kind, hc.mode]
  exact releaseHandle d.kind d.mode hc.handle

/-- Null goes together with null in twins. -/
theorem clear (hc : c.Renamed R d) : Lockstep R c.clear d.clear containers := by
  intro s s' m
  have hnull : R Handle.null Handle.null := m.host.null
  unfold Container.clear
  rw [hc.kind, hc.mode]
  refine bind (releaseHandle d.kind d.mode hc.handle) (fun R₁ _ _ grows _ => ?_) s s' m
  exact pure ⟨rfl, rfl, grows _ _ hnull⟩

/-- **Assignment.** The copy goes together with the copy; the old contents go in both. -/
theorem replaceBy {e f : Container} (hc : c.Renamed R d) (he : e.Renamed R f) :
    Lockstep R (c.replaceBy e) (d.replaceBy f) containers := by
  unfold Container.replaceBy
  rw [hc.kind]
  refine bind (copyHandle d.kind he.handle) fun R₁ copy copy' grows paired => ?_
  refine bind (clear (hc.mono grows)) fun R₂ c' d' grows' hc' => ?_
  exact pure ⟨hc'.kind, hc'.mode, grows' _ _ paired⟩

/-! ## Elements -/

theorem elements (hc : c.Renamed R d) (type : ElementType) :
    Lockstep R (Act.read (c.elements type)) (Act.read (d.elements type)) fun _ l l' => l = l' :=
  read fun _ _ m => .of_eq (m.elements hc type)

theorem write (hc : c.Renamed R d) (type : ElementType) (start : Nat) (values : List Scalar) :
    Lockstep R (c.write type start values) (d.write type start values) fun _ n n' => n = n' := by
  unfold Container.write
  refine bind (elements hc type) fun R₁ l l' grows hl => ?_
  have hwrite : Lockstep R₁ (Act.order (·.overwriteArray c.handle start values))
      (Act.order (·.overwriteArray d.handle start values)) fun _ _ _ => True :=
    order fun _ _ m => ⟨R₁, m.overwriteArray (grows _ _ hc.handle) start values⟩
  exact bind hwrite fun _ _ _ _ _ => pure (by rw [hl])

/-- **Arrays with given elements.** They fit in both or in neither. -/
theorem arrayOf (type : ElementType) (dims : List Int) (values : List Scalar) :
    Lockstep R (Act.arrayOf type dims values) (Act.arrayOf type dims values) containers := by
  unfold Act.arrayOf
  refine bind (newArray type dims) fun R₁ c d _ hc => ?_
  refine bind (elements hc type) fun R₂ present present' grows hpresent => ?_
  -- the arrays have equally many elements, so the same number of values is missing or left over
  subst hpresent
  have hc₂ := hc.mono grows
  dsimp only
  split
  · exact bind (release hc₂) fun _ _ _ _ _ => fail _
  · exact bind (write hc₂ type 0 values) fun _ _ _ grows' _ => pure (hc₂.mono grows')

/-! ## Appending -/

/-- Paired lists are refused under the same names. -/
theorem insertionLabel_eq (m : s.Twin R s') (paired : R h k) (name : Option String) :
    insertionLabel h name = insertionLabel k name := by
  unfold insertionLabel
  simp only [m.host.null_iff paired]

theorem acceptNode {p q : Payload} (paired : R h k) (hp : p.Renamed R q) (label : Option Bytes) :
    Lockstep R (Act.order (·.acceptNode h label p)) (Act.order (·.acceptNode k label q))
      fun _ _ _ => True :=
  order fun _ _ m => m.acceptNode paired label hp

/-- Contents that go together are appended. -/
theorem pushPayload (hc : c.Renamed R d) (name : Option String) {p q : Payload}
    (hp : p.Renamed R q) :
    Lockstep R (c.pushPayload name p) (d.pushPayload name q) fun _ _ _ => True := by
  intro s s' m
  unfold Container.pushPayload
  rw [insertionLabel_eq m hc.handle name]
  cases insertionLabel d.handle name with
  | error fault => exact fail fault s s' m
  | ok label => exact acceptNode hc.handle hp label s s' m

/-- The kind that is named is refused in both or in neither. -/
theorem pushErased (hc : c.Renamed R d) (name : Option String) (kind : Kind) {p : Payload}
    (plain : (p.readAs kind).stored = none) :
    Lockstep R (c.pushErased name kind p) (d.pushErased name kind p) fun _ _ _ => True := by
  have hpush := pushPayload hc name (.plain plain)
  unfold Container.pushErased
  by_cases herased : kind = .erased
  · rw [if_pos herased, if_pos herased]
    exact bind (m := fun _ _ _ => False) (fail _) fun _ _ _ _ h => h.elim
  · rw [if_neg herased, if_neg herased]
    exact hpush

/-- A value that holds no handle of something stored is appended. -/
theorem pushValue (hc : c.Renamed R d) (name : Option String) {v : Value}
    (plain : v.payload.stored = none) :
    Lockstep R (c.pushValue name v) (d.pushValue name v) fun _ _ _ => True := by
  intro s s' m
  unfold Container.pushValue
  rw [insertionLabel_eq m hc.handle name]
  cases insertionLabel d.handle name with
  | error fault => exact fail fault s s' m
  | ok label =>
    have haccept := acceptNode hc.handle (.plain plain) label
    cases v with
    | text b =>
      dsimp only [Act.ofExcept]
      rw [pure_bind, pure_bind]
      by_cases hnul : hasNul b = true
      · rw [if_pos hnul, if_pos hnul]
        exact bind (m := fun _ _ _ => False) (fail _) (fun _ _ _ _ h => h.elim) s s' m
      · rw [if_neg hnul, if_neg hnul]
        exact haccept s s' m
    | _ => exact haccept s s' m

/-- A container moves into the list, or is released in both. -/
theorem pushContainer {e f : Container} (hc : c.Renamed R d) (he : e.Renamed R f)
    (name : Option String) :
    Lockstep R (c.pushContainer name e) (d.pushContainer name f) fun _ _ _ => True := by
  intro s s' m
  unfold Container.pushContainer
  rw [insertionLabel_eq m hc.handle name]
  cases insertionLabel d.handle name with
  | ok label => exact acceptNode hc.handle he.payload label s s' m
  | error fault =>
    -- the value has been consumed, so it goes before the error is raised
    exact bind (release he) (fun _ _ _ _ _ => fail fault) s s' m

end Lockstep

end Act

end Marshal
