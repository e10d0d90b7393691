import Mathlib.Data.List.Forall2
import Marshal.Proofs.Host.Depth

/-!
# `Proofs.Host.Alike` — two hosts that are alike up to names

A renaming pairs handles of one host with handles of another. The hosts are alike under it if
paired handles name equal arrays and collections whose nodes are paired in their turn; what has no
partner is not spoken of. The same request, made of two such hosts for paired handles, is answered
alike, and the hosts are alike again, with what has been made paired in addition. Besides, it leaves
everything without a partner alone, so a third host that is like the first one under other names does
not notice.

Copying is the request for which this takes an argument: how deep it may go depends on the numbers
given out, which differ between the hosts. It is enough to compare both at one depth, because the copy
that a host makes is a copy at some depth, and every such copy is the one that the host makes.

## Contents

* `Renaming`, `Payload.Renamed`, `Node.Renamed`, `Alike` — alike up to names;
* `Reaches` — the handles that contents lead to;
* `Follows` — two hosts gone on alike, and how that composes;
* `Alike.addArray?`, `Alike.newCollection`, `Alike.acceptNode`, `Alike.freeArray`,
  `Alike.freeCollection`, … — one request each;
* `Alike.spared` — what others do;
* `nestedFollows`, `Alike.copyCollection` — copies;
* `Alike.self` — a host is like itself.
-/

namespace Marshal

open Marshal.Text

/-! ## Alike up to names -/

/-- Which handles of one host stand for which handles of another. -/
abbrev Renaming := Handle → Handle → Prop

/-- A renaming with one more pair. -/
def Renaming.add (R : Renaming) (h k : Handle) : Renaming := fun h' k' => R h' k' ∨ (h' = h ∧ k' = k)

/-- Contents that are the same up to the names of what the host stores. -/
inductive Payload.Renamed (R : Renaming) : Payload → Payload → Prop
  | plain {p : Payload} (taken : p.stored = none) : Renamed R p p
  | tensor {h k : Handle} (paired : R h k) : Renamed R (.tensor h) (.tensor k)
  | numericArray {h k : Handle} (paired : R h k) : Renamed R (.numericArray h) (.numericArray k)
  | collection {c d : Handle} (paired : R c d) : Renamed R (.collection c) (.collection d)

/-- Nodes that are the same up to names. -/
structure Node.Renamed (R : Renaming) (n m : Node) : Prop where
  id : R n.id m.id
  name : n.name = m.name
  payload : n.payload.Renamed R m.payload

section Renamed

variable {R R₁ : Renaming} {p q : Payload}

theorem Payload.Renamed.mono (grows : ∀ h k, R h k → R₁ h k) (hp : p.Renamed R q) :
    p.Renamed R₁ q := by
  cases hp with
  | plain taken => exact .plain taken
  | tensor paired => exact .tensor (grows _ _ paired)
  | numericArray paired => exact .numericArray (grows _ _ paired)
  | collection paired => exact .collection (grows _ _ paired)

theorem Payload.Renamed.flip (hp : p.Renamed R q) : q.Renamed (flip R) p := by
  cases hp with
  | plain taken => exact .plain taken
  | tensor paired => exact .tensor paired
  | numericArray paired => exact .numericArray paired
  | collection paired => exact .collection paired

theorem Payload.Renamed.kind_eq (hp : p.Renamed R q) : p.kind = q.kind := by
  cases hp <;> rfl

/-- A handle of a container kind as contents of a slot. -/
theorem Payload.Renamed.ofHandle {h k : Handle} (kind : ContainerKind) (paired : R h k) :
    (Payload.ofHandle kind.kind h).Renamed R (Payload.ofHandle kind.kind k) := by
  cases kind with
  | tensor => exact .tensor paired
  | numericArray => exact .numericArray paired
  | collection => exact .collection paired

/-- What is stored under a handle has a partner. -/
theorem Payload.Renamed.of_stored {u : Host.Use} {h : Handle} (hp : p.Renamed R q)
    (stored : p.stored = some (u, h)) : ∃ k, q.stored = some (u, k) ∧ R h k := by
  cases hp with
  | plain taken =>
    rw [taken] at stored
    cases stored
  | tensor paired =>
    obtain ⟨rfl, rfl⟩ := Prod.mk.inj (Option.some.inj stored)
    exact ⟨_, rfl, paired⟩
  | numericArray paired =>
    obtain ⟨rfl, rfl⟩ := Prod.mk.inj (Option.some.inj stored)
    exact ⟨_, rfl, paired⟩
  | collection paired =>
    obtain ⟨rfl, rfl⟩ := Prod.mk.inj (Option.some.inj stored)
    exact ⟨_, rfl, paired⟩

theorem Node.Renamed.mono {n m : Node} (grows : ∀ h k, R h k → R₁ h k) (hn : n.Renamed R m) :
    n.Renamed R₁ m :=
  ⟨grows _ _ hn.id, hn.name, hn.payload.mono grows⟩

theorem Node.Renamed.flip {n m : Node} (hn : n.Renamed R m) : m.Renamed (flip R) n :=
  ⟨hn.id, hn.name.symm, hn.payload.flip⟩

/-- The nodes of two collections, or none if they are gone. -/
abbrev NodesRenamed (R : Renaming) : Option (List Node) → Option (List Node) → Prop :=
  Option.Rel (List.Forall₂ (Node.Renamed R))

theorem NodesRenamed.mono {l r : Option (List Node)} (grows : ∀ h k, R h k → R₁ h k)
    (hl : NodesRenamed R l r) : NodesRenamed R₁ l r := by
  cases hl with
  | none => exact .none
  | some nodes => exact .some (nodes.imp fun _ _ hn => hn.mono grows)

theorem NodesRenamed.flip {l r : Option (List Node)} (hl : NodesRenamed R l r) :
    NodesRenamed (flip R) r l := by
  cases hl with
  | none => exact .none
  | some nodes => exact .some (nodes.flip.imp fun _ _ hn => hn.flip)

/-- Each node has its counterpart. -/
theorem exists_renamed {nodes nodes' : List Node} {n : Node}
    (h : List.Forall₂ (Node.Renamed R) nodes nodes') (mem : n ∈ nodes) :
    ∃ n' ∈ nodes', n.Renamed R n' := by
  induction h with
  | nil => cases mem
  | @cons m m' rest rest' hm _ ih =>
    rcases List.mem_cons.mp mem with rfl | mem
    · exact ⟨m', List.mem_cons_self, hm⟩
    · obtain ⟨n', mem', hn⟩ := ih mem
      exact ⟨n', List.mem_cons_of_mem _ mem', hn⟩

end Renamed

namespace Host

/-- **Two hosts are alike** under a renaming: paired handles name the same. -/
structure Alike (R : Renaming) (w w' : Host) : Prop where
  history : ∃ made, History made w
  history' : ∃ made, History made w'
  null : R Handle.null Handle.null
  injective : ∀ h h' k, R h k → R h' k → h = h'
  functional : ∀ h k k', R h k → R h k' → k = k'
  bounded : ∀ h k, R h k → h < w.nextId ∧ k < w'.nextId
  arrays : ∀ h k, R h k → w.arrays.get? h = w'.arrays.get? k
  collections : ∀ h k, R h k → NodesRenamed R (w.collections.get? h) (w'.collections.get? k)
  unlinked : ∀ h k, R h k → w.links.get? h = none ∧ w'.links.get? k = none

/-- The handles that contents lead to: null, those of what they own, and the nodes in it. -/
def Reaches (live : Table (List Node)) (p : Payload) (h : Handle) : Prop :=
  h = Handle.null ∨ (∃ q u, Owned live [p] q ∧ q.stored = some (u, h)) ∨ OwnsNode live [p] h

/-- A handle names what it has named before. -/
structure Untouched (w w₁ : Host) (h : Handle) : Prop where
  arrays : w₁.arrays.get? h = w.arrays.get? h
  collections : w₁.collections.get? h = w.collections.get? h
  links : w₁.links.get? h = w.links.get? h

/-- **Two hosts have gone on alike.** They are alike again under a renaming that has grown by
what both have made, and what had no partner in the first one is as it was. -/
structure Follows (R : Renaming) (w w' : Host) (R₁ : Renaming) (w₁ w₁' : Host) : Prop where
  alike : Alike R₁ w₁ w₁'
  grows : ∀ h k, R h k → R₁ h k
  fresh : ∀ h k, R₁ h k → R h k ∨ (w.nextId ≤ h ∧ w'.nextId ≤ k)
  next : w.nextId ≤ w₁.nextId
  next' : w'.nextId ≤ w₁'.nextId
  spares : ∀ h < w.nextId, (∀ k, ¬ R h k) → Untouched w w₁ h

theorem Evolves.history {w w₁ : Host} (hev : Evolves w w₁) (past : ∃ made, History made w) :
    ∃ made, History made w₁ := by
  obtain ⟨made, past⟩ := past
  obtain ⟨more, changes⟩ := hev
  exact ⟨made ++ more, past.changes changes⟩

/-- Nothing is found under a number that names nothing. -/
theorem get?_of_unnamed {w : Host} {h : Handle} (unnamed : ∀ u, ¬ w.names u h = true) :
    w.arrays.get? h = none ∧ w.collections.get? h = none ∧ w.links.get? h = none :=
  ⟨Table.get?_of_not_contains (unnamed .array), Table.get?_of_not_contains (unnamed .collection),
    Table.get?_of_not_contains (unnamed .link)⟩

theorem untaken_next {w : Host} (past : ∃ made, History made w) :
    w.arrays.get? w.nextId = none ∧ w.collections.get? w.nextId = none ∧
      w.links.get? w.nextId = none := by
  obtain ⟨made, past⟩ := past
  refine get?_of_unnamed fun u hn => ?_
  rw [past.sound.next_unnamed u] at hn
  cases hn

theorem untaken_null {w : Host} (past : ∃ made, History made w) :
    w.arrays.get? Handle.null = none ∧ w.collections.get? Handle.null = none ∧
      w.links.get? Handle.null = none := by
  obtain ⟨made, past⟩ := past
  exact get?_of_unnamed fun u hn => absurd (past.sound.lt_next hn).1 (Nat.lt_irrefl 0)

/-! ## Going on alike -/

theorem Untouched.refl (w : Host) (h : Handle) : Untouched w w h := ⟨rfl, rfl, rfl⟩

theorem Untouched.trans {w w₁ w₂ : Host} {h : Handle} (first : Untouched w w₁ h)
    (second : Untouched w₁ w₂ h) : Untouched w w₂ h where
  arrays := second.arrays.trans first.arrays
  collections := second.collections.trans first.collections
  links := second.links.trans first.links

/-- What is not touched names what it has named. -/
theorem Untouched.names_eq {w w' : Host} {h : Handle} (untouched : Untouched w w' h)
    {q : Payload} {u : Use} (stored : q.stored = some (u, h)) : w'.names u h = w.names u h := by
  have harrays : w'.arrays.contains h = w.arrays.contains h :=
    congrArg Option.isSome untouched.arrays
  have hcollections : w'.collections.contains h = w.collections.contains h :=
    congrArg Option.isSome untouched.collections
  cases q with
  | tensor k => cases stored; exact harrays
  | numericArray k => cases stored; exact harrays
  | collection c => cases stored; exact hcollections
  | _ => cases stored

/-- Changes to numbers from `b` on do not touch the numbers before. -/
theorem Confined.untouched {b : Handle} {w w' : Host} (confined : Confined b w w') {h : Handle}
    (hlt : h < b) : Untouched w w' h :=
  ⟨confined.arrays h hlt, confined.collections h hlt, congrArg (·.get? h) confined.links⟩

namespace Follows

variable {R R₁ R₂ : Renaming} {w w' w₁ w₁' w₂ w₂' : Host}

theorem refl (m : Alike R w w') : Follows R w w' R w w' where
  alike := m
  grows _ _ hk := hk
  fresh _ _ hk := .inl hk
  next := Nat.le_refl _
  next' := Nat.le_refl _
  spares h _ _ := .refl w h

/-- What has no partner at first gets none, since new pairs are of new numbers. -/
theorem unpaired (f : Follows R w w' R₁ w₁ w₁') {h : Handle} (old : h < w.nextId)
    (alone : ∀ k, ¬ R h k) (k : Handle) : ¬ R₁ h k := by
  intro paired
  rcases f.fresh h k paired with before | ⟨new, -⟩
  · exact alone k before
  · exact absurd old (Nat.not_lt.mpr new)

theorem trans (f : Follows R w w' R₁ w₁ w₁') (g : Follows R₁ w₁ w₁' R₂ w₂ w₂') :
    Follows R w w' R₂ w₂ w₂' where
  alike := g.alike
  grows h k paired := g.grows h k (f.grows h k paired)
  fresh h k paired := by
    rcases g.fresh h k paired with before | ⟨new, new'⟩
    · exact f.fresh h k before
    · exact .inr ⟨Nat.le_trans f.next new, Nat.le_trans f.next' new'⟩
  next := Nat.le_trans f.next g.next
  next' := Nat.le_trans f.next' g.next'
  spares h old alone :=
    (f.spares h old alone).trans
      (g.spares h (Nat.lt_of_lt_of_le old f.next) (f.unpaired old alone))

end Follows

namespace Alike

variable {R : Renaming} {w w' w₁ w₁' : Host}

theorem flip (m : Alike R w w') : Alike (flip R) w' w where
  history := m.history'
  history' := m.history
  null := m.null
  injective h h' k paired paired' := m.functional k h h' paired paired'
  functional h k k' paired paired' := m.injective k k' h paired paired'
  bounded h k paired := (m.bounded k h paired).symm
  arrays h k paired := (m.arrays k h paired).symm
  collections h k paired := (m.collections k h paired).flip
  unlinked h k paired := (m.unlinked k h paired).symm

/-- Paired handles are equal to handles of another pair both or neither. -/
theorem eq_iff (m : Alike R w w') {h h' k k' : Handle} (paired : R h k) (paired' : R h' k') :
    h = h' ↔ k = k' := by
  constructor
  · rintro rfl
    exact m.functional h k k' paired paired'
  · rintro rfl
    exact m.injective h h' k paired paired'

theorem null_iff (m : Alike R w w') {h k : Handle} (paired : R h k) :
    h = Handle.null ↔ k = Handle.null := m.eq_iff paired m.null

/-- The partner of a live collection is live, with partners of its nodes. -/
theorem nodes (m : Alike R w w') {c d : Handle} {nodes : List Node} (paired : R c d)
    (found : w.collections.get? c = some nodes) :
    ∃ nodes', w'.collections.get? d = some nodes' ∧ List.Forall₂ (Node.Renamed R) nodes nodes' := by
  have hnodes := m.collections c d paired
  rw [found] at hnodes
  generalize hd : w'.collections.get? d = found' at hnodes
  cases hnodes with
  | some hnodes => exact ⟨_, rfl, hnodes⟩

/-- The partner of what is no live collection is none. -/
theorem no_nodes (m : Alike R w w') {c d : Handle} (paired : R c d)
    (gone : w.collections.get? c = none) : w'.collections.get? d = none := by
  have hnodes := m.collections c d paired
  rw [gone] at hnodes
  generalize hd : w'.collections.get? d = found' at hnodes
  cases hnodes with
  | none => rfl

/-- A request that makes nothing. -/
theorem stay (m : Alike R w w') (history : ∃ made, History made w₁)
    (history' : ∃ made, History made w₁') (next : w.nextId ≤ w₁.nextId)
    (next' : w'.nextId ≤ w₁'.nextId) (links : w₁.links = w.links) (links' : w₁'.links = w'.links)
    (arrays : ∀ h k, R h k → w₁.arrays.get? h = w₁'.arrays.get? k)
    (collections : ∀ h k, R h k →
      NodesRenamed R (w₁.collections.get? h) (w₁'.collections.get? k))
    (spares : ∀ h < w.nextId, (∀ k, ¬ R h k) →
      w₁.arrays.get? h = w.arrays.get? h ∧ w₁.collections.get? h = w.collections.get? h) :
    Follows R w w' R w₁ w₁' where
  alike :=
    { m with
      history, history', arrays, collections
      bounded := fun h k paired =>
        ⟨Nat.lt_of_lt_of_le (m.bounded h k paired).1 next,
          Nat.lt_of_lt_of_le (m.bounded h k paired).2 next'⟩
      unlinked := fun h k paired => by
        rw [links, links']
        exact m.unlinked h k paired }
  grows _ _ paired := paired
  fresh _ _ paired := .inl paired
  next := next
  next' := next'
  spares h old alone := ⟨(spares h old alone).1, (spares h old alone).2, by rw [links]⟩

/-- A request that gives the next number to something. -/
theorem grow (m : Alike R w w') (hev : Evolves w w₁) (hev' : Evolves w' w₁')
    (next : w₁.nextId = w.nextId + 1) (next' : w₁'.nextId = w'.nextId + 1)
    (links : w₁.links = w.links) (links' : w₁'.links = w'.links)
    (arrays : ∀ h k, R h k → w₁.arrays.get? h = w₁'.arrays.get? k)
    (collections : ∀ h k, R h k →
      NodesRenamed (R.add w.nextId w'.nextId) (w₁.collections.get? h) (w₁'.collections.get? k))
    (arrays_new : w₁.arrays.get? w.nextId = w₁'.arrays.get? w'.nextId)
    (collections_new : NodesRenamed (R.add w.nextId w'.nextId) (w₁.collections.get? w.nextId)
      (w₁'.collections.get? w'.nextId))
    (spares : ∀ h < w.nextId, (∀ k, ¬ R h k) →
      w₁.arrays.get? h = w.arrays.get? h ∧ w₁.collections.get? h = w.collections.get? h) :
    Follows R w w' (R.add w.nextId w'.nextId) w₁ w₁' where
  alike :=
    { history := hev.history m.history
      history' := hev'.history m.history'
      null := .inl m.null
      injective := by
        -- the new numbers are beyond the bounds of every old pair
        rintro h h' k (paired | ⟨rfl, rfl⟩) (paired' | ⟨rfl, hk⟩)
        · exact m.injective h h' k paired paired'
        · exact absurd (m.bounded h k paired).2 (hk ▸ Nat.lt_irrefl _)
        · exact absurd (m.bounded h' _ paired').2 (Nat.lt_irrefl _)
        · rfl
      functional := by
        rintro h k k' (paired | ⟨rfl, rfl⟩) (paired' | ⟨hh, rfl⟩)
        · exact m.functional h k k' paired paired'
        · exact absurd (m.bounded h k paired).1 (hh ▸ Nat.lt_irrefl _)
        · exact absurd (m.bounded _ k' paired').1 (Nat.lt_irrefl _)
        · rfl
      bounded := by
        rintro h k (paired | ⟨rfl, rfl⟩)
        · rw [next, next']
          exact ⟨Nat.lt_succ_of_lt (m.bounded h k paired).1, Nat.lt_succ_of_lt (m.bounded h k paired).2⟩
        · rw [next, next']
          exact ⟨Nat.lt_succ_self _, Nat.lt_succ_self _⟩
      arrays := by
        rintro h k (paired | ⟨rfl, rfl⟩)
        · exact arrays h k paired
        · exact arrays_new
      collections := by
        rintro h k (paired | ⟨rfl, rfl⟩)
        · exact collections h k paired
        · exact collections_new
      unlinked := by
        rintro h k (paired | ⟨rfl, rfl⟩)
        · rw [links, links']
          exact m.unlinked h k paired
        · rw [links, links']
          exact ⟨(untaken_next m.history).2.2, (untaken_next m.history').2.2⟩ }
  grows _ _ paired := .inl paired
  fresh := by
    rintro h k (paired | ⟨rfl, rfl⟩)
    · exact .inl paired
    · exact .inr ⟨Nat.le_refl _, Nat.le_refl _⟩
  next := next ▸ Nat.le_succ _
  next' := next' ▸ Nat.le_succ _
  spares h old alone := ⟨(spares h old alone).1, (spares h old alone).2, by rw [links]⟩

/-! ## Arrays -/

theorem addArray (m : Alike R w w') (a : Dense) :
    Follows R w w' (R.add w.nextId w'.nextId) (w.addArray a).2 (w'.addArray a).2 := by
  have old : ∀ w : Host, ∀ h < w.nextId, (w.addArray a).2.arrays.get? h = w.arrays.get? h :=
    fun w h hlt => Table.get?_insert_of_ne _ _ (Nat.ne_of_lt hlt)
  have new : ∀ w : Host, (w.addArray a).2.arrays.get? w.nextId = some a :=
    fun w => Table.get?_insert_self ..
  refine m.grow (.single (.array w a)) (.single (.array w' a)) rfl rfl rfl rfl ?_ ?_ ?_ ?_ ?_
  · intro h k paired
    rw [old w h (m.bounded h k paired).1, old w' k (m.bounded h k paired).2]
    exact m.arrays h k paired
  · intro h k paired
    exact (m.collections h k paired).mono fun _ _ => .inl
  · rw [new, new]
  · show NodesRenamed _ (w.collections.get? w.nextId) (w'.collections.get? w'.nextId)
    rw [(untaken_next m.history).2.1, (untaken_next m.history').2.1]
    exact .none
  · intro h hlt _
    exact ⟨old w h hlt, rfl⟩

/-- A new array has a partner, if there is one. -/
theorem addArray? (m : Alike R w w') (a : Option Dense) :
    ∃ R₁, Follows R w w' R₁ (w.addArray? a).2 (w'.addArray? a).2 ∧
      Option.Rel R₁ (w.addArray? a).1 (w'.addArray? a).1 := by
  cases a with
  | none => exact ⟨R, .refl m, .none⟩
  | some a => exact ⟨_, m.addArray a, .some (.inr ⟨rfl, rfl⟩)⟩

theorem copyArray (m : Alike R w w') {h k : Handle} (paired : R h k) :
    ∃ R₁, Follows R w w' R₁ (w.copyArray h).2 (w'.copyArray k).2 ∧
      Option.Rel R₁ (w.copyArray h).1 (w'.copyArray k).1 := by
  unfold Host.copyArray
  rw [m.arrays h k paired]
  exact m.addArray? _

theorem convertArray (m : Alike R w w') {h k : Handle} (paired : R h k) (target : NumericType)
    (method : Method) (tolerance : Number.Real64) :
    ∃ R₁, Follows R w w' R₁ (w.convertArray h target method tolerance).2
        (w'.convertArray k target method tolerance).2 ∧
      Option.Rel R₁ (w.convertArray h target method tolerance).1
        (w'.convertArray k target method tolerance).1 := by
  unfold Host.convertArray
  rw [m.arrays h k paired]
  exact m.addArray? _

/-- An array is changed in place. -/
theorem modifyArray (m : Alike R w w') {h k : Handle} (paired : R h k) (f : Dense → Dense)
    (history : ∃ made, History made w₁) (history' : ∃ made, History made w₁')
    (hw₁ : w₁.arrays = w.arrays.modify h f ∧ w₁.collections = w.collections ∧ w₁.links = w.links ∧
      w₁.nextId = w.nextId)
    (hw₁' : w₁'.arrays = w'.arrays.modify k f ∧ w₁'.collections = w'.collections ∧
      w₁'.links = w'.links ∧ w₁'.nextId = w'.nextId) : Follows R w w' R w₁ w₁' := by
  obtain ⟨harrays, hcollections, hlinks, hnext⟩ := hw₁
  obtain ⟨harrays', hcollections', hlinks', hnext'⟩ := hw₁'
  refine m.stay history history' (Nat.le_of_eq hnext.symm) (Nat.le_of_eq hnext'.symm) hlinks hlinks'
    ?_ ?_ ?_
  · intro h₁ k₁ paired₁
    rw [harrays, harrays', Table.get?_modify, Table.get?_modify, m.arrays h k paired,
      m.arrays h₁ k₁ paired₁]
    simp only [m.eq_iff paired₁ paired]
  · intro h₁ k₁ paired₁
    rw [hcollections, hcollections']
    exact m.collections h₁ k₁ paired₁
  · intro h₁ _ alone
    have other : h₁ ≠ h := by
      rintro rfl
      exact alone k paired
    rw [harrays, hcollections, Table.get?_modify, if_neg other]
    exact ⟨rfl, rfl⟩

theorem overwriteArray (m : Alike R w w') {h k : Handle} (paired : R h k) (start : Nat)
    (values : List Scalar) :
    Follows R w w' R (w.overwriteArray h start values) (w'.overwriteArray k start values) :=
  m.modifyArray paired (·.overwrite start values)
    (Evolves.history (.single (.modifyArray ..)) m.history)
    (Evolves.history (.single (.modifyArray ..)) m.history') ⟨rfl, rfl, rfl, rfl⟩ ⟨rfl, rfl, rfl, rfl⟩

theorem disownArray (m : Alike R w w') {h k : Handle} (paired : R h k) :
    Follows R w w' R (w.disownArray h) (w'.disownArray k) := by
  obtain ⟨made, past⟩ := m.history
  obtain ⟨made', past'⟩ := m.history'
  exact m.modifyArray paired _ ⟨made, past.disown h⟩ ⟨made', past'.disown k⟩ ⟨rfl, rfl, rfl, rfl⟩
    ⟨rfl, rfl, rfl, rfl⟩

theorem freeArray (m : Alike R w w') {h k : Handle} (paired : R h k) :
    Follows R w w' R (w.freeArray h) (w'.freeArray k) := by
  refine m.stay (Evolves.history (.freeArray w h) m.history)
    (Evolves.history (.freeArray w' k) m.history') (Nat.le_of_eq (nextId_freeArray ..).symm)
    (Nat.le_of_eq (nextId_freeArray ..).symm) (links_freeArray ..) (links_freeArray ..) ?_ ?_ ?_
  · intro h₁ k₁ paired₁
    rw [get?_arrays_freeArray, get?_arrays_freeArray, m.arrays h₁ k₁ paired₁]
    simp only [m.eq_iff paired₁ paired]
  · intro h₁ k₁ paired₁
    rw [collections_freeArray, collections_freeArray]
    exact m.collections h₁ k₁ paired₁
  · intro h₁ _ alone
    have other : h₁ ≠ h := by
      rintro rfl
      exact alone k paired
    rw [get?_arrays_freeArray, if_neg other, collections_freeArray]
    exact ⟨rfl, rfl⟩

/-! ## Collections -/

theorem newCollection (m : Alike R w w') :
    Follows R w w' (R.add w.nextId w'.nextId) w.newCollection.2 w'.newCollection.2 := by
  have old : ∀ w : Host, ∀ h < w.nextId,
      w.newCollection.2.collections.get? h = w.collections.get? h :=
    fun w h hlt => Table.get?_insert_of_ne _ _ (Nat.ne_of_lt hlt)
  have new : ∀ w : Host, w.newCollection.2.collections.get? w.nextId = some [] :=
    fun w => Table.get?_insert_self ..
  refine m.grow (.single (.collection w)) (.single (.collection w')) rfl rfl rfl rfl ?_ ?_ ?_ ?_ ?_
  · intro h k paired
    exact m.arrays h k paired
  · intro h k paired
    rw [old w h (m.bounded h k paired).1, old w' k (m.bounded h k paired).2]
    exact (m.collections h k paired).mono fun _ _ => .inl
  · show w.arrays.get? w.nextId = w'.arrays.get? w'.nextId
    rw [(untaken_next m.history).1, (untaken_next m.history').1]
  · rw [new, new]
    exact .some .nil
  · intro h hlt _
    exact ⟨rfl, old w h hlt⟩

/-- A node is appended to paired collections, or to none if they are gone. -/
theorem appendNode (m : Alike R w w') {c d : Handle} (paired : R c d) (name : Option Bytes)
    {p q : Payload} (hp : p.Renamed R q) :
    ∃ R₁, Follows R w w' R₁ (w.appendNode c name p) (w'.appendNode d name q) := by
  cases found : w.collections.get? c with
  | none =>
    simp only [Host.appendNode, found, m.no_nodes paired found]
    exact ⟨R, .refl m⟩
  | some nodes =>
    obtain ⟨nodes', found', hnodes⟩ := m.nodes paired found
    have hev : Evolves w (w.appendNode c name p) := .appendNode ..
    have hev' : Evolves w' (w'.appendNode d name q) := .appendNode ..
    rw [appendNode_of_live found] at hev ⊢
    rw [appendNode_of_live found'] at hev' ⊢
    obtain ⟨hc, hd⟩ := m.bounded c d paired
    refine ⟨R.add w.nextId w'.nextId, m.grow hev hev' rfl rfl rfl rfl ?_ ?_ ?_ ?_ ?_⟩
    · intro h k paired₁
      exact m.arrays h k paired₁
    · intro h k paired₁
      dsimp only
      rw [Table.get?_insert, Table.get?_insert]
      by_cases hh : h = c
      · -- the collection itself, with the new node at its end
        rw [if_pos hh, if_pos ((m.eq_iff paired₁ paired).mp hh)]
        refine .some (List.rel_append (hnodes.imp fun _ _ hn => hn.mono fun _ _ => .inl) ?_)
        exact .cons ⟨.inr ⟨rfl, rfl⟩, rfl, hp.mono fun _ _ => .inl⟩ .nil
      · rw [if_neg hh, if_neg fun hk => hh ((m.eq_iff paired₁ paired).mpr hk)]
        exact (m.collections h k paired₁).mono fun _ _ => .inl
    · rw [(untaken_next m.history).1, (untaken_next m.history').1]
    · dsimp only
      rw [Table.get?_insert_of_ne _ _ (Nat.ne_of_gt hc), Table.get?_insert_of_ne _ _
        (Nat.ne_of_gt hd), (untaken_next m.history).2.1, (untaken_next m.history').2.1]
      exact .none
    · intro h _ alone
      refine ⟨rfl, Table.get?_insert_of_ne _ _ ?_⟩
      rintro rfl
      exact alone d paired

/-- Contents from outside are appended alike: a text is completed in both, and a collection is kept
out of itself in both. -/
theorem acceptNode (m : Alike R w w') {c d : Handle} (paired : R c d) (name : Option Bytes)
    {p q : Payload} (hp : p.Renamed R q) :
    ∃ R₁, Follows R w w' R₁ (w.acceptNode c name p) (w'.acceptNode d name q) := by
  cases hp with
  | plain taken =>
    cases p with
    | text b =>
      cases b with
      | none => exact m.appendNode paired name (.plain (p := .text (some [])) rfl)
      | some b => exact m.appendNode paired name (.plain taken)
    | collection c => cases taken
    | _ => exact m.appendNode paired name (.plain taken)
  | tensor paired₁ => exact m.appendNode paired name (.tensor paired₁)
  | numericArray paired₁ => exact m.appendNode paired name (.numericArray paired₁)
  | @collection c₁ d₁ paired₁ =>
    show ∃ R₁, Follows R w w' R₁ (if c₁ = c then w else _) (if d₁ = d then w' else _)
    by_cases hself : c₁ = c
    · rw [if_pos hself, if_pos ((m.eq_iff paired₁ paired).mp hself)]
      exact ⟨R, .refl m⟩
    · rw [if_neg hself, if_neg fun hd => hself ((m.eq_iff paired₁ paired).mpr hd)]
      exact m.appendNode paired name (.collection paired₁)

/-! ## Release -/

/-- What is owned by contents has a partner owned by theirs. -/
theorem owned (m : Alike R w w') {p p' q : Payload} (hp : p.Renamed R p')
    (hq : Owned w.collections [p] q) :
    ∃ q', Owned w'.collections [p'] q' ∧ q.Renamed R q' := by
  induction hq with
  | here mem =>
    rw [List.mem_singleton.mp mem]
    exact ⟨p', owned_self, hp⟩
  | @inside c nodes n _ found mem ih =>
    obtain ⟨q', howned, hq'⟩ := ih
    cases hq' with
    | plain taken => cases taken
    | collection paired =>
      obtain ⟨nodes', found', hnodes⟩ := m.nodes paired found
      obtain ⟨n', mem', hn⟩ := exists_renamed hnodes mem
      exact ⟨n'.payload, .inside howned found' mem', hn.payload⟩

/-- What is owned has a partner. -/
theorem owned_stored (m : Alike R w w') {p p' q : Payload} (hp : p.Renamed R p')
    (hq : Owned w.collections [p] q) {u : Use} {h : Handle} (stored : q.stored = some (u, h)) :
    ∃ k, R h k := by
  obtain ⟨q', -, hq'⟩ := m.owned hp hq
  obtain ⟨k, -, paired⟩ := hq'.of_stored stored
  exact ⟨k, paired⟩

theorem ownsArray_of (m : Alike R w w') {p p' : Payload} (hp : p.Renamed R p') {h k : Handle}
    (paired : R h k) (hq : OwnsArray w.collections [p] h) : OwnsArray w'.collections [p'] k := by
  rcases hq with hq | hq
  · obtain ⟨q', howned, hq'⟩ := m.owned hp hq
    cases hq' with
    | plain taken => cases taken
    | tensor paired' => exact .inl (m.functional h _ _ paired' paired ▸ howned)
  · obtain ⟨q', howned, hq'⟩ := m.owned hp hq
    cases hq' with
    | plain taken => cases taken
    | numericArray paired' => exact .inr (m.functional h _ _ paired' paired ▸ howned)

theorem ownsCollection_of (m : Alike R w w') {p p' : Payload} (hp : p.Renamed R p')
    {c d : Handle} (paired : R c d) (hq : Owned w.collections [p] (.collection c)) :
    Owned w'.collections [p'] (.collection d) := by
  obtain ⟨q', howned, hq'⟩ := m.owned hp hq
  cases hq' with
  | plain taken => cases taken
  | collection paired' => exact m.functional c _ _ paired' paired ▸ howned

theorem freeCollection (m : Alike R w w') {c d : Handle} (paired : R c d) :
    Follows R w w' R (w.freeCollection c) (w'.freeCollection d) := by
  classical
  have hp : Payload.Renamed R (.collection c) (.collection d) := .collection paired
  obtain ⟨hnext, hlinks, -⟩ := freeAll_frame w [.collection c]
  obtain ⟨hnext', hlinks', -⟩ := freeAll_frame w' [.collection d]
  refine m.stay (Evolves.history (.freeAll ..) m.history) (Evolves.history (.freeAll ..) m.history')
    (Nat.le_of_eq hnext.symm) (Nat.le_of_eq hnext'.symm) hlinks hlinks' ?_ ?_ ?_
  · intro h k paired₁
    have howns : OwnsArray w.collections [.collection c] h ↔
        OwnsArray w'.collections [.collection d] k :=
      ⟨m.ownsArray_of hp paired₁, m.flip.ownsArray_of hp.flip paired₁⟩
    unfold Host.freeCollection
    rw [get?_arrays_freeAll, get?_arrays_freeAll, m.arrays h k paired₁]
    simp only [howns]
  · intro h k paired₁
    have howns : Owned w.collections [.collection c] (.collection h) ↔
        Owned w'.collections [.collection d] (.collection k) :=
      ⟨m.ownsCollection_of hp paired₁, m.flip.ownsCollection_of hp.flip paired₁⟩
    unfold Host.freeCollection
    rw [get?_collections_freeAll, get?_collections_freeAll]
    by_cases hh : Owned w.collections [.collection c] (.collection h)
    · rw [if_pos hh, if_pos (howns.mp hh)]
      exact .none
    · rw [if_neg hh, if_neg fun hk => hh (howns.mpr hk)]
      exact m.collections h k paired₁
  · intro h _ alone
    -- whatever is freed has a partner
    have hpartner : ∀ q u, Owned w.collections [.collection c] q → q.stored ≠ some (u, h) := by
      intro q u hq stored
      obtain ⟨k, paired₁⟩ := m.owned_stored hp hq stored
      exact alone k paired₁
    have harray : ¬ OwnsArray w.collections [.collection c] h := by
      rintro (hq | hq)
      · exact hpartner _ _ hq rfl
      · exact hpartner _ _ hq rfl
    unfold Host.freeCollection
    rw [get?_arrays_freeAll, if_neg harray, get?_collections_freeAll,
      if_neg fun hq => hpartner _ _ hq rfl]
    exact ⟨rfl, rfl⟩

/-- What is led to from contents has a partner. -/
theorem reaches (m : Alike R w w') {p p' : Payload} (hp : p.Renamed R p') {h : Handle}
    (hreach : Reaches w.collections p h) : ∃ k, R h k := by
  rcases hreach with rfl | ⟨q, u, howned, stored⟩ | ⟨c, nodes, howned, found, mem⟩
  · exact ⟨_, m.null⟩
  · exact m.owned_stored hp howned stored
  · obtain ⟨n, hn, rfl⟩ := List.mem_map.mp mem
    obtain ⟨d, paired⟩ := m.owned_stored hp howned rfl
    obtain ⟨nodes', -, hnodes⟩ := m.nodes paired found
    obtain ⟨n', -, hn'⟩ := exists_renamed hnodes hn
    exact ⟨n'.id, hn'.id⟩

/-! ## What others do -/

/-- Nothing is ever found under null. -/
theorem untouched_null (history : ∃ made, History made w) (history₁ : ∃ made, History made w₁) :
    Untouched w w₁ Handle.null := by
  obtain ⟨ha, hc, hl⟩ := untaken_null history
  obtain ⟨ha₁, hc₁, hl₁⟩ := untaken_null history₁
  exact ⟨ha₁.trans ha.symm, hc₁.trans hc.symm, hl₁.trans hl.symm⟩

/-- **Hosts that are alike stay so, whatever is done to handles that are not paired.** -/
theorem spared (m : Alike R w w') (history : ∃ made, History made w₁)
    (next : w.nextId ≤ w₁.nextId) (untouched : ∀ h k, R h k → Untouched w w₁ h) :
    Alike R w₁ w' where
  history := history
  history' := m.history'
  null := m.null
  injective := m.injective
  functional := m.functional
  bounded h k paired :=
    ⟨Nat.lt_of_lt_of_le (m.bounded h k paired).1 next, (m.bounded h k paired).2⟩
  arrays h k paired := by
    rw [(untouched h k paired).arrays]
    exact m.arrays h k paired
  collections h k paired := by
    rw [(untouched h k paired).collections]
    exact m.collections h k paired
  unlinked h k paired := by
    rw [(untouched h k paired).links]
    exact m.unlinked h k paired

end Alike

/-! ## Copies -/

section Copies

variable {R : Renaming} {w w' : Host} {d : Nat}

/-- What copies at a smaller depth do. -/
def NestedFollows (d : Nat) : Prop :=
  ∀ (R : Renaming) (w w' : Host) (c c' : Handle), Alike R w w' → R c c' →
    (copyNested d c w).1.isSome = true →
      ∃ R₁, Follows R w w' R₁ (copyNested d c w).2 (copyNested d c' w').2 ∧
        Option.Rel R₁ (copyNested d c w).1 (copyNested d c' w').1

theorem Alike.copyPayload (hnested : NestedFollows d) (m : Alike R w w') {p p' : Payload}
    (hp : p.Renamed R p') (hsome : (copyPayload (copyNested d) w p).1.isSome = true) :
    ∃ R₁, Follows R w w' R₁ (copyPayload (copyNested d) w p).2 (copyPayload (copyNested d) w' p').2 ∧
      Option.Rel (Payload.Renamed R₁) (copyPayload (copyNested d) w p).1
        (copyPayload (copyNested d) w' p').1 := by
  have map : ∀ {R₁ : Renaming} {made made' : Option Handle} (k : Handle → Payload),
      (∀ h h', R₁ h h' → (k h).Renamed R₁ (k h')) → Option.Rel R₁ made made' →
        Option.Rel (Payload.Renamed R₁) (made.map k) (made'.map k) := by
    intro R₁ made made' k hk hmade
    cases hmade with
    | none => exact .none
    | some paired => exact .some (hk _ _ paired)
  cases hp with
  | plain taken =>
    cases p with
    | tensor h => cases taken
    | numericArray h => cases taken
    | collection c => cases taken
    | _ => exact ⟨R, .refl m, .some (.plain taken)⟩
  | tensor paired =>
    obtain ⟨R₁, hfollows, hmade⟩ := m.copyArray paired
    exact ⟨R₁, hfollows, map .tensor (fun _ _ => .tensor) hmade⟩
  | numericArray paired =>
    obtain ⟨R₁, hfollows, hmade⟩ := m.copyArray paired
    exact ⟨R₁, hfollows, map .numericArray (fun _ _ => .numericArray) hmade⟩
  | collection paired =>
    obtain ⟨R₁, hfollows, hmade⟩ :=
      hnested R w w' _ _ m paired ((Option.isSome_map ..).symm.trans hsome)
    exact ⟨R₁, hfollows, map .collection (fun _ _ => .collection) hmade⟩

theorem Alike.copyNodes (hnested : NestedFollows d) (m : Alike R w w') {copy copy' : Handle}
    (paired : R copy copy') {nodes nodes' : List Node}
    (hnodes : List.Forall₂ (Node.Renamed R) nodes nodes')
    (hsome : (copyNodes (copyNested d) copy w nodes).1.isSome = true) :
    ∃ R₁, Follows R w w' R₁ (copyNodes (copyNested d) copy w nodes).2
        (copyNodes (copyNested d) copy' w' nodes').2 ∧
      Option.Rel R₁ (copyNodes (copyNested d) copy w nodes).1
        (copyNodes (copyNested d) copy' w' nodes').1 := by
  -- the renaming and the hosts change with every node, so the induction is over all of them
  induction nodes generalizing R w w' nodes' with
  | nil =>
    cases hnodes
    exact ⟨R, .refl m, .some paired⟩
  | cons n rest ih =>
    cases hnodes with
    | @cons _ n' _ rest' hn hrest =>
      rw [Host.copyNodes] at hsome
      rw [Host.copyNodes, Host.copyNodes]
      rcases hp : Host.copyPayload (copyNested d) w n.payload with ⟨_ | p, w₁⟩
      · rw [hp] at hsome
        cases hsome
      · obtain ⟨R₁, hfollows, hmade⟩ := m.copyPayload hnested hn.payload (by rw [hp]; rfl)
        rcases hp' : Host.copyPayload (copyNested d) w' n'.payload with ⟨_ | p', w₁'⟩
        · rw [hp, hp'] at hmade
          cases hmade
        · rw [hp, hp'] at hfollows hmade
          rw [hp] at hsome
          cases hmade with
          | some hmade =>
            -- the node is appended to both copies, and then come the others
            obtain ⟨R₂, happended⟩ :=
              hfollows.alike.appendNode (hfollows.grows _ _ paired) n.name hmade
            have hgrows := fun h k hR => happended.grows h k (hfollows.grows h k hR)
            obtain ⟨R₃, hrestFollows, hresult⟩ := ih happended.alike (hgrows _ _ paired)
              (hrest.imp fun _ _ hm => hm.mono hgrows) hsome
            rw [hn.name] at happended hrestFollows hresult
            dsimp only
            rw [hn.name]
            exact ⟨R₃, (hfollows.trans happended).trans hrestFollows, hresult⟩

/-- **Copies made at one depth**, if there is one in the first host. -/
theorem nestedFollows (d : Nat) : NestedFollows d := by
  induction d with
  | zero => exact fun R w w' c c' m paired hsome => by cases hsome
  | succ d ih =>
    intro R w w' c c' m paired hsome
    rw [copyNested, copyOnce] at hsome
    split at hsome
    · cases hsome
    · next nodes found =>
      obtain ⟨nodes', found', hnodes⟩ := m.nodes paired found
      rw [copyNested, copyNested, copyOnce, copyOnce, found, found']
      have hcreated := m.newCollection
      obtain ⟨R₁, hcopied, hresult⟩ := hcreated.alike.copyNodes ih (.inr ⟨rfl, rfl⟩)
        (hnodes.imp fun _ _ hn => hn.mono hcreated.grows) hsome
      exact ⟨R₁, hcreated.trans hcopied, hresult⟩

/-- A copy that one host makes is made by the other. -/
theorem Alike.copyCollection_of_isSome (m : Alike R w w') {c c' : Handle} (paired : R c c')
    (hsome : (w.copyCollection c).1.isSome = true) :
    ∃ R₁, Follows R w w' R₁ (w.copyCollection c).2 (w'.copyCollection c').2 ∧
      Option.Rel R₁ (w.copyCollection c).1 (w'.copyCollection c').1 := by
  -- both copies are looked at at one depth
  obtain ⟨d, hd⟩ := copyNested_of_copyCollection hsome
  rw [← hd] at hsome ⊢
  obtain ⟨R₁, hfollows, hresult⟩ := nestedFollows d R w w' c c' m paired hsome
  have hsome' : (copyNested d c' w').1.isSome = true := by
    generalize copyNested d c w = result at hsome hresult
    generalize copyNested d c' w' = result' at hresult ⊢
    obtain ⟨made, host⟩ := result
    obtain ⟨made', host'⟩ := result'
    cases hresult with
    | none => cases hsome
    | some => rfl
  have hmade : w'.copyCollection c' = copyNested d c' w' := by
    refine copyCollection_of_copyNested m.history' ?_ hsome'
    intro q u h hq hs
    obtain ⟨k, hk⟩ := m.flip.owned_stored (.collection paired) hq hs
    exact (m.bounded k h hk).2
  rw [hmade]
  exact ⟨R₁, hfollows, hresult⟩

/-- What is copied, or rolled back, leaves every number given out before alone. -/
theorem untouched_copyCollection (past : ∃ made, History made w) (c : Handle) :
    (∀ h < w.nextId, Untouched w (w.copyCollection c).2 h) ∧
      (w.copyCollection c).2.links = w.links := by
  obtain ⟨made, past⟩ := past
  obtain ⟨hconf, -⟩ := (Confined.refl (Nat.le_refl w.nextId) past.sound.is_bounded.closed).copyCollection
    c
  exact ⟨fun h hlt => hconf.untouched hlt, hconf.links⟩

/-- **Copies of collections.** There is one in both hosts or in neither, and a copy has a partner. -/
theorem Alike.copyCollection (m : Alike R w w') {c c' : Handle} (paired : R c c') :
    ∃ R₁, Follows R w w' R₁ (w.copyCollection c).2 (w'.copyCollection c').2 ∧
      Option.Rel R₁ (w.copyCollection c).1 (w'.copyCollection c').1 := by
  cases hcopy : (w.copyCollection c).1 with
  | some k => exact hcopy ▸ m.copyCollection_of_isSome paired (by rw [hcopy]; rfl)
  | none =>
    cases hcopy' : (w'.copyCollection c').1 with
    | some k' =>
      -- a copy in the second host only would be one in the first, looked at the other way round
      obtain ⟨R₁, -, hresult⟩ := m.flip.copyCollection_of_isSome paired (by rw [hcopy']; rfl)
      rw [hcopy, hcopy'] at hresult
      cases hresult
    | none =>
      -- what has been made for a copy is rolled back, and no old number is touched
      have hold := untouched_copyCollection m.history c
      have hold' := untouched_copyCollection m.history' c'
      have hev := Evolves.copyCollection w c
      have hev' := Evolves.copyCollection w' c'
      refine ⟨R, m.stay (hev.history m.history) (hev'.history m.history') hev.nextId_le
        hev'.nextId_le hold.2 hold'.2 ?_ ?_ ?_, .none⟩
      · intro h k paired₁
        obtain ⟨hh, hk⟩ := m.bounded h k paired₁
        rw [(hold.1 h hh).arrays, (hold'.1 k hk).arrays]
        exact m.arrays h k paired₁
      · intro h k paired₁
        obtain ⟨hh, hk⟩ := m.bounded h k paired₁
        rw [(hold.1 h hh).collections, (hold'.1 k hk).collections]
        exact m.collections h k paired₁
      · intro h hh _
        exact ⟨(hold.1 h hh).arrays, (hold.1 h hh).collections⟩

end Copies

/-! ## A host and itself -/

/-- Contents all of whose handles are null or live. -/
def NullOrLive (w : Host) (p : Payload) : Prop :=
  ∀ q u h, Owned w.collections [p] q → q.stored = some (u, h) → h = Handle.null ∨ w.names u h = true

section Self

variable {made : List (Handle × Use)} {w : Host} {p : Payload}

/-- A node of a live collection is registered. -/
theorem names_of_ownsNode (past : History made w) {id : Handle}
    (h : OwnsNode w.collections [p] id) : w.names .node id = true := by
  obtain ⟨c, nodes, -, found, mem⟩ := h
  obtain ⟨n, hn, rfl⟩ := List.mem_map.mp mem
  obtain ⟨i, hi⟩ := List.mem_iff_getElem?.mp hn
  exact Table.contains_of_get? ((past.sound.place_iff n.id c i).mpr ⟨nodes, n, found, hi, rfl⟩)

/-- What is led to is null or names something that is no link, and if it names a collection that
collection is owned. -/
theorem Reaches.named (past : History made w) (hlive : NullOrLive w p) {h : Handle}
    (hreach : Reaches w.collections p h) :
    h = Handle.null ∨ ∃ u, w.names u h = true ∧ u ≠ .link ∧
      (u = .collection → Owned w.collections [p] (.collection h)) := by
  rcases hreach with hnull | ⟨q, u, howned, stored⟩ | hnode
  · exact .inl hnull
  · rcases hlive q u h howned stored with hnull | hnamed
    · exact .inl hnull
    · refine .inr ⟨u, hnamed, ?_, ?_⟩
      · rintro rfl
        cases q <;> cases stored
      · rintro rfl
        cases q <;> cases stored
        exact howned
  · exact .inr ⟨.node, names_of_ownsNode past hnode, by decide, fun h => by cases h⟩

/-- A host is like itself under the identity on what contents lead to, if that is live. -/
theorem Alike.self (past : History made w) (hlive : NullOrLive w p) :
    Alike (fun h k => h = k ∧ Reaches w.collections p h) w w where
  history := ⟨made, past⟩
  history' := ⟨made, past⟩
  null := ⟨rfl, .inl rfl⟩
  injective := by
    rintro h h' k ⟨rfl, -⟩ ⟨rfl, -⟩
    rfl
  functional := by
    rintro h k k' ⟨rfl, -⟩ ⟨rfl, -⟩
    rfl
  bounded := by
    rintro h k ⟨rfl, hreach⟩
    rcases hreach.named past hlive with rfl | ⟨u, hnamed, -⟩
    · exact ⟨past.sound.next_pos, past.sound.next_pos⟩
    · exact ⟨(past.sound.lt_next hnamed).2, (past.sound.lt_next hnamed).2⟩
  arrays := by
    rintro h k ⟨rfl, -⟩
    rfl
  collections := by
    rintro h k ⟨rfl, hreach⟩
    cases found : w.collections.get? h with
    | none => exact .none
    | some nodes =>
      have hcollection : w.names .collection h = true := Table.contains_of_get? found
      have howned : Owned w.collections [p] (.collection h) := by
        rcases hreach.named past hlive with rfl | ⟨u, hnamed, -, howned⟩
        · exact absurd (past.sound.lt_next hcollection).1 (Nat.lt_irrefl 0)
        · exact howned (past.sound.names_unique hnamed hcollection)
      refine .some (List.forall₂_same.mpr fun n hn => ?_)
      have hinside : Owned w.collections [p] n.payload := .inside howned found hn
      refine ⟨⟨rfl, .inr (.inr ⟨h, nodes, howned, found, List.mem_map_of_mem hn⟩)⟩, rfl, ?_⟩
      have hpaired : ∀ u k, n.payload.stored = some (u, k) → Reaches w.collections p k :=
        fun u k hk => .inr (.inl ⟨n.payload, u, hinside, hk⟩)
      generalize n.payload = q at hpaired ⊢
      cases q with
      | tensor k => exact .tensor ⟨rfl, hpaired _ k rfl⟩
      | numericArray k => exact .numericArray ⟨rfl, hpaired _ k rfl⟩
      | collection k => exact .collection ⟨rfl, hpaired _ k rfl⟩
      | _ => exact .plain rfl
  unlinked := by
    rintro h k ⟨rfl, hreach⟩
    have hnone : ¬ w.names .link h = true := by
      intro hlink
      rcases hreach.named past hlive with rfl | ⟨u, hnamed, hu, -⟩
      · exact absurd (past.sound.lt_next hlink).1 (Nat.lt_irrefl 0)
      · exact hu (past.sound.names_unique hnamed hlink)
    exact ⟨Table.get?_of_not_contains hnone, Table.get?_of_not_contains hnone⟩

end Self

end Host

end Marshal
