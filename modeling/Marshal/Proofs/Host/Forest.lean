import Mathlib.Data.List.Nodup
import Mathlib.Data.List.Perm.Basic
import Marshal.Proofs.Host.Copy

/-!
# `Proofs.Host.Forest` — everything on the host has one owner

Contents own an array or a collection if they refer to it. In a forest every live array and every
live collection is owned exactly once, either by one of the roots, which stand for what owns things
from outside the host, or by one node of one live collection; nothing else is owned; and everything
live is reached from a root. Nothing contains itself then, because what leads back to a collection
would own it a second time.

Each operation of the host takes a forest to a forest with other roots. Making something adds a root
for it, appending takes a root away and puts a node in its place, and freeing takes roots away
together with all that they lead to. Copying does all of this over and over, and when it fails the
last step takes away whatever root it had added.

## Contents

* `Payload.asset`, `held`, `owners`, `stores` — who owns what, and what there is;
* `Forest` — the invariant, with `Forest.acyclic` and `Forest.stores_iff`;
* `Forest.addArray`, `Forest.appendNode`, `Forest.freeAll`, `Forest.copyCollection`, … — what each
  operation does to the roots.
-/

namespace Marshal

open Marshal.Host

/-- What contents own: what the host stores for them, unless they hold null. -/
def Payload.asset (p : Payload) : Option (Use × Handle) := p.stored.filter (·.2 ≠ Handle.null)

theorem Payload.asset_eq_some {p : Payload} {a : Use × Handle} :
    p.asset = some a ↔ p.stored = some a ∧ a.2 ≠ Handle.null := by
  simp [asset, Option.filter_eq_some_iff]

/-! ## Entries of tables -/

namespace Table

variable {α : Type}

theorem mem_entries_iff {t : Table α} {n : Nat} {a : α} :
    (n, a) ∈ t.entries ↔ t.get? n = some a := by
  refine ⟨fun hmem => ?_, mem_entries_of_get?⟩
  have hfound : (t.entries.find? (·.1 == n)).isSome = true :=
    List.find?_isSome.mpr ⟨(n, a), hmem, beq_self_eq_true n⟩
  obtain ⟨e, he⟩ := Option.isSome_iff_exists.mp hfound
  have hkey : (e.1 == n) = true := List.find?_some (p := fun q : Nat × α => q.1 == n) he
  have heq := List.inj_on_of_nodup_map t.distinct (List.mem_of_find?_eq_some he) hmem
    (eq_of_beq hkey)
  rw [get?, he, heq]
  rfl

/-- What is under a number can be put first. -/
theorem perm_entries {t : Table α} {n : Nat} {a : α} (h : t.get? n = some a) :
    t.entries.Perm ((n, a) :: (t.erase n).entries) := by
  refine (List.perm_ext_iff_of_nodup t.distinct.of_map ?_).mpr ?_
  · refine List.nodup_cons.mpr ⟨?_, (t.erase n).distinct.of_map⟩
    simp [erase]
  · rintro ⟨m, b⟩
    rw [List.mem_cons]
    by_cases hm : m = n
    · subst hm
      rw [mem_entries_iff, mem_entries_iff, get?_erase_self, h]
      simp [eq_comm]
    · rw [mem_entries_iff, mem_entries_iff, get?_erase_of_ne _ hm]
      simp [hm]

/-- Taking out nothing leaves everything. -/
theorem erase_of_get?_none {t : Table α} {n : Nat} (h : t.get? n = none) :
    (t.erase n).entries = t.entries := by
  refine List.filter_eq_self.mpr ?_
  rintro ⟨m, a⟩ hmem
  have hne : m ≠ n := by
    rintro rfl
    rw [mem_entries_iff, h] at hmem
    cases hmem
  simpa using hne

end Table

namespace Host

open Marshal.Text

/-! ## Owners -/

/-- What the nodes of live collections hold. -/
def held (live : Table (List Node)) : List Payload :=
  live.entries.flatMap fun e => e.2.map (·.payload)

/-- How often something is owned by given contents. -/
def owners (ps : List Payload) (a : Use × Handle) : Nat := ps.countP (·.asset = some a)

/-- Whether something that can be owned is there. -/
def stores (w : Host) : Use × Handle → Bool
  | (.array, h) => w.arrays.contains h
  | (.collection, c) => w.collections.contains c
  | _ => false

section Owners

variable {a : Use × Handle}

@[simp] theorem owners_nil : owners [] a = 0 := rfl

@[simp] theorem owners_append (ps qs : List Payload) :
    owners (ps ++ qs) a = owners ps a + owners qs a := List.countP_append

theorem owners_cons (p : Payload) (ps : List Payload) :
    owners (p :: ps) a = owners ps a + if p.asset = some a then 1 else 0 := by
  simp [owners, List.countP_cons]

theorem owners_perm {ps qs : List Payload} (h : ps.Perm qs) : owners ps a = owners qs a :=
  h.countP_eq _

theorem owners_pos {ps : List Payload} {p : Payload} (hmem : p ∈ ps) (hp : p.asset = some a) :
    0 < owners ps a := List.countP_pos_iff.mpr ⟨p, hmem, by simpa using hp⟩

theorem mem_held {live : Table (List Node)} {p : Payload} :
    p ∈ held live ↔ ∃ c nodes n, live.get? c = some nodes ∧ n ∈ nodes ∧ n.payload = p := by
  simp only [held, List.mem_flatMap, List.mem_map]
  constructor
  · rintro ⟨⟨c, nodes⟩, he, n, hn, rfl⟩
    exact ⟨c, nodes, n, Table.mem_entries_iff.mp he, hn, rfl⟩
  · rintro ⟨c, nodes, n, found, hn, rfl⟩
    exact ⟨(c, nodes), Table.mem_entries_iff.mpr found, n, hn, rfl⟩

/-- What is held is held by one collection or by the others. -/
theorem owners_held {live : Table (List Node)} {c : Handle} {nodes : List Node}
    (found : live.get? c = some nodes) :
    owners (held live) a =
      owners (nodes.map (·.payload)) a + owners (held (live.erase c)) a := by
  have hperm : (held live).Perm (nodes.map (·.payload) ++ held (live.erase c)) :=
    (Table.perm_entries found).flatMap_right _
  rw [owners_perm hperm, owners_append]

theorem owners_held_insert (live : Table (List Node)) (c : Handle) (nodes : List Node) :
    owners (held (live.insert c nodes)) a =
      owners (nodes.map (·.payload)) a + owners (held (live.erase c)) a := by
  rw [← owners_append]
  rfl

theorem owners_held_erase_dead {live : Table (List Node)} {c : Handle} (dead : live.get? c = none) :
    owners (held (live.erase c)) a = owners (held live) a := by
  unfold held
  rw [Table.erase_of_get?_none dead]

end Owners

/-- Owning goes on in larger collections. -/
theorem Owned.grow {live live' : Table (List Node)} {work work' : List Payload} {q : Payload}
    (hlive : ∀ c nodes, live.get? c = some nodes →
      ∃ nodes', live'.get? c = some nodes' ∧ ∀ n ∈ nodes, n ∈ nodes')
    (hwork : ∀ p ∈ work, Owned live' work' p) (h : Owned live work q) : Owned live' work' q := by
  induction h with
  | here mem => exact hwork _ mem
  | @inside c nodes n _ found mem ih =>
    obtain ⟨nodes', found', hsub⟩ := hlive c nodes found
    exact .inside ih found' (hsub n mem)

/-! ## Forests -/

/-- **Every live array and collection has one owner**, a root or a node, and hangs on a root. -/
structure Forest (w : Host) (roots : List Payload) : Prop where
  next_pos : 0 < w.nextId
  bounded : Bounded w
  single : ∀ a, owners (roots ++ held w.collections) a = (w.stores a).toNat
  rooted : ∀ a, w.stores a = true → ∃ p, Owned w.collections roots p ∧ p.asset = some a

namespace Forest

variable {w : Host} {roots roots' : List Payload} {a : Use × Handle}

/-- An empty host is a forest without roots. -/
theorem empty : Forest {} [] := by
  refine ⟨Nat.one_pos, fun u h hn => ?_, fun a => ?_, fun a ha => ?_⟩
  · cases u <;> cases hn
  · obtain ⟨u, h⟩ := a
    cases u <;> rfl
  · obtain ⟨u, h⟩ := a
    cases u <;> cases ha

/-- What is owned by a root or a node is live. -/
theorem stores_of_owner (f : Forest w roots) {p : Payload}
    (hmem : p ∈ roots ++ held w.collections) (hp : p.asset = some a) : w.stores a = true := by
  have hpos := owners_pos hmem hp
  rw [f.single a] at hpos
  cases hs : w.stores a with
  | true => rfl
  | false => rw [hs] at hpos; exact absurd hpos (Nat.lt_irrefl 0)

/-- What is owned at all is live. -/
theorem stores_of_owned (f : Forest w roots) {p : Payload} (h : Owned w.collections roots p)
    (hp : p.asset = some a) : w.stores a = true := by
  cases h with
  | here mem => exact f.stores_of_owner (List.mem_append_left _ mem) hp
  | inside _ found mem =>
    exact f.stores_of_owner (List.mem_append_right _ (mem_held.mpr ⟨_, _, _, found, mem, rfl⟩)) hp

/-- **What is live is what the roots own.** -/
theorem stores_iff (f : Forest w roots) :
    w.stores a = true ↔ ∃ p, Owned w.collections roots p ∧ p.asset = some a :=
  ⟨f.rooted a, fun ⟨_, h, hp⟩ => f.stores_of_owned h hp⟩

/-- Nothing has two owners. -/
theorem owners_le_one (f : Forest w roots) (a : Use × Handle) :
    owners roots a + owners (held w.collections) a ≤ 1 := by
  rw [← owners_append, f.single a]
  exact Bool.toNat_le _

/-- Null is nothing. -/
theorem stores_null (f : Forest w roots) (u : Use) : w.stores (u, Handle.null) = false := by
  cases hs : w.stores (u, Handle.null) with
  | false => rfl
  | true =>
    obtain ⟨p, -, hp⟩ := f.rooted _ hs
    exact absurd rfl (Payload.asset_eq_some.mp hp).2

/-- Only the owners count, not their order. -/
theorem perm (f : Forest w roots) (h : roots.Perm roots') : Forest w roots' where
  next_pos := f.next_pos
  bounded := f.bounded
  single a := by rw [← f.single a, owners_perm (h.append_right _)]
  rooted a ha := by
    obtain ⟨p, hp, hpa⟩ := f.rooted a ha
    exact ⟨p, hp.mono fun q hq => h.mem_iff.mp hq, hpa⟩

/-- Contents that own nothing may be among the roots or not. -/
theorem cons_iff_of_asset_none {p : Payload} (hp : p.asset = none) :
    Forest w (p :: roots) ↔ Forest w roots := by
  have same : ∀ a, owners (p :: roots ++ held w.collections) a =
      owners (roots ++ held w.collections) a := by
    intro a
    rw [List.cons_append, owners_cons, hp]
    simp
  constructor
  · intro f
    refine ⟨f.next_pos, f.bounded, fun a => by rw [← same, f.single], fun a ha => ?_⟩
    obtain ⟨q, hq, hqa⟩ := f.rooted a ha
    -- a collection that owns nothing is null, and null is not live
    have leaf : ∀ c, p = .collection c → w.collections.get? c = none := by
      rintro c rfl
      have hc : c = Handle.null := by
        by_contra hc
        cases hp.symm.trans (Payload.asset_eq_some.mpr ⟨rfl, hc⟩)
      refine Table.get?_of_not_contains ?_
      have hnull : w.collections.contains Handle.null = false := f.stores_null .collection
      rw [hc, hnull]
      exact Bool.false_ne_true
    rcases (owned_cons_leaf leaf).mp hq with rfl | hq
    · cases hp.symm.trans hqa
    · exact ⟨q, hq, hqa⟩
  · intro f
    refine ⟨f.next_pos, f.bounded, fun a => by rw [same, f.single], fun a ha => ?_⟩
    obtain ⟨q, hq, hqa⟩ := f.rooted a ha
    exact ⟨q, hq.mono fun _ => List.mem_cons_of_mem _, hqa⟩

/-! ## Making things -/

/-- The next number names nothing. -/
theorem stores_next (f : Forest w roots) (u : Use) : w.stores (u, w.nextId) = false := by
  have unnamed : ∀ v, w.names v w.nextId = false := by
    intro v
    cases hn : w.names v w.nextId with
    | false => rfl
    | true => exact absurd (f.bounded v _ hn) (Nat.lt_irrefl _)
  cases u with
  | array => exact unnamed .array
  | collection => exact unnamed .collection
  | node => rfl
  | link => rfl

/-- Contents that refer to the next number own what is made under it. -/
theorem asset_next (f : Forest w roots) {u : Use} {p : Payload}
    (hp : p.stored = some (u, w.nextId)) : p.asset = some (u, w.nextId) :=
  Payload.asset_eq_some.mpr ⟨hp, Nat.ne_of_gt f.next_pos⟩

/-- Something new that nothing owns yet is a new root. -/
theorem addRoot (f : Forest w roots) {w' : Host} {u : Use} {p : Payload}
    (hp : p.stored = some (u, w.nextId)) (hev : Evolves w w')
    (hstores : ∀ b, w'.stores b = (decide (b = (u, w.nextId)) || w.stores b))
    (hheld : ∀ b, owners (held w'.collections) b = owners (held w.collections) b)
    (hgrow : ∀ c nodes, w.collections.get? c = some nodes → w'.collections.get? c = some nodes) :
    Forest w' (p :: roots) where
  next_pos := Nat.lt_of_lt_of_le f.next_pos hev.nextId_le
  bounded := hev.bounded f.bounded
  single b := by
    have hsum := f.single b
    rw [owners_append] at hsum
    rw [List.cons_append, owners_cons, owners_append, hheld, hsum, hstores, f.asset_next hp]
    by_cases hb : b = (u, w.nextId)
    · subst hb
      rw [f.stores_next]
      simp
    · have hne : ¬ (some (u, w.nextId) = some b) := fun e => hb (Option.some.inj e).symm
      rw [if_neg hne, decide_eq_false hb, Bool.false_or, Nat.add_zero]
  rooted b hb := by
    rw [hstores, Bool.or_eq_true, decide_eq_true_iff] at hb
    rcases hb with rfl | hb
    · exact ⟨p, .here List.mem_cons_self, f.asset_next hp⟩
    · obtain ⟨q, hq, hqb⟩ := f.rooted b hb
      refine ⟨q, hq.grow (fun c nodes found => ⟨nodes, hgrow c nodes found, fun _ h => h⟩) ?_, hqb⟩
      exact fun r hr => .here (List.mem_cons_of_mem _ hr)

/-- A new array is a new root. -/
theorem addArray (f : Forest w roots) (d : Dense) {p : Payload}
    (hp : p.stored = some (.array, w.nextId)) : Forest (w.addArray d).2 (p :: roots) := by
  refine f.addRoot hp (.single (.array w d)) (fun b => ?_) (fun b => rfl) (fun c nodes found => found)
  obtain ⟨v, h⟩ := b
  cases v <;> simp [stores, Host.addArray, fresh, Table.contains_insert]

/-- A new collection is a new root. -/
theorem newCollection (f : Forest w roots) :
    Forest w.newCollection.2 (.collection w.nextId :: roots) := by
  have dead : w.collections.get? w.nextId = none :=
    Table.get?_of_not_contains (by
      have := f.stores_next .collection
      rw [stores] at this
      simp [this])
  refine f.addRoot rfl (.single (.collection w)) (fun b => ?_) (fun b => ?_) (fun c nodes found => ?_)
  · obtain ⟨v, h⟩ := b
    cases v <;> simp [stores, Host.newCollection, fresh, Table.contains_insert]
  · show owners (held (w.collections.insert w.nextId [])) b = _
    rw [owners_held_insert, List.map_nil, owners_nil, Nat.zero_add, owners_held_erase_dead dead]
  · refine (Table.get?_insert_of_ne _ _ ?_).trans found
    rintro rfl
    rw [dead] at found
    cases found

/-- Writing to arrays changes no owner. -/
theorem modifyArray (f : Forest w roots) (h : Handle) (g : Dense → Dense) :
    Forest { w with arrays := w.arrays.modify h g } roots := by
  have hstores : ∀ b, Host.stores { w with arrays := w.arrays.modify h g } b = w.stores b := by
    rintro ⟨v, k⟩
    cases v <;> simp [stores]
  refine ⟨f.next_pos, ?_, fun b => ?_, fun b hb => ?_⟩
  · exact (Evolves.single (.modifyArray w h g)).bounded f.bounded
  · rw [hstores, ← f.single b]
  · rw [hstores] at hb
    exact f.rooted b hb

/-! ## Appending -/

/-- **Appending takes a root away and puts a node in its place.** The collection is a root itself, so
    it is not what is put into it. -/
theorem appendNode {p : Payload} (f : Forest w (p :: roots)) {c : Handle}
    (hc : .collection c ∈ roots) (hnull : c ≠ Handle.null) (name : Option Bytes) :
    Forest (w.appendNode c name p) roots := by
  have hlive : w.stores (.collection, c) = true := by
    refine f.stores_of_owner (p := .collection c) ?_ (Payload.asset_eq_some.mpr ⟨rfl, hnull⟩)
    exact List.mem_append_left _ (List.mem_cons_of_mem _ hc)
  obtain ⟨nodes, found⟩ := Table.contains_iff.mp hlive
  have hstores : ∀ b, (w.appendNode c name p).stores b = w.stores b := by
    rintro ⟨v, k⟩
    rw [appendNode_of_live found]
    cases v with
    | collection =>
      simp only [stores, Table.contains_insert]
      by_cases hk : k = c
      · rw [hk, decide_eq_true rfl, Bool.true_or]
        exact hlive.symm
      · rw [decide_eq_false hk, Bool.false_or]
    | _ => rfl
  refine ⟨Nat.lt_of_lt_of_le f.next_pos (Evolves.appendNode ..).nextId_le,
    (Evolves.appendNode ..).bounded f.bounded, fun b => ?_, fun b hb => ?_⟩
  · have hsum := f.single b
    rw [List.cons_append, owners_cons, owners_append, owners_held found] at hsum
    rw [hstores, appendNode_of_live found, ← hsum]
    show owners (roots ++ held (w.collections.insert c (nodes ++ [⟨w.nextId, name, p⟩]))) b = _
    rw [owners_append, owners_held_insert, List.map_append, owners_append, List.map_singleton,
      owners_cons, owners_nil]
    dsimp only
    omega
  · rw [hstores] at hb
    obtain ⟨q, hq, hqb⟩ := f.rooted b hb
    rw [appendNode_of_live found]
    -- the way from a root is what it was, but what began at `p` now begins at the collection
    refine ⟨q, hq.grow (fun d nodes' found' => ?_) ?_, hqb⟩
    · by_cases hd : d = c
      · subst hd
        obtain rfl := Option.some.inj (found.symm.trans found')
        exact ⟨_, Table.get?_insert_self .., fun n hn => List.mem_append_left _ hn⟩
      · exact ⟨nodes', (Table.get?_insert_of_ne _ _ hd).trans found', fun n hn => hn⟩
    · intro r hr
      rcases List.mem_cons.mp hr with rfl | hr
      · have hnew : (⟨w.nextId, name, r⟩ : Node) ∈ nodes ++ [⟨w.nextId, name, r⟩] := by simp
        exact .inside (.here hc) (Table.get?_insert_self ..) hnew
      · exact .here hr

/-- Contents that come from outside are appended: a root is not put into itself, and a text owns
    nothing. -/
theorem acceptNode {p : Payload} (f : Forest w (p :: roots)) {c : Handle}
    (hc : .collection c ∈ roots) (hnull : c ≠ Handle.null) (name : Option Bytes) :
    Forest (w.acceptNode c name p) roots := by
  unfold Host.acceptNode
  split
  · have f' : Forest w (.text (some []) :: roots) :=
      (cons_iff_of_asset_none rfl).mpr ((cons_iff_of_asset_none rfl).mp f)
    exact f'.appendNode hc hnull name
  · next inner =>
    split
    · next heq =>
      -- the collection would be owned twice
      subst heq
      have ha : (Payload.collection inner).asset = some (.collection, inner) :=
        Payload.asset_eq_some.mpr ⟨rfl, hnull⟩
      have hle := f.owners_le_one (.collection, inner)
      rw [owners_cons, if_pos ha] at hle
      have hpos := owners_pos hc ha
      omega
    · exact f.appendNode hc hnull name
  · exact f.appendNode hc hnull name

/-! ## Freeing -/

/-- Contents that refer to nothing live own nothing. -/
theorem asset_none_of_dead {p : Payload} {u : Use} {h : Handle} (f : Forest w (p :: roots))
    (hp : p.stored = some (u, h)) (dead : w.stores (u, h) = false) : p.asset = none := by
  cases ha : p.asset with
  | none => rfl
  | some b =>
    have hb := (Payload.asset_eq_some.mp ha).1
    obtain rfl := Option.some.inj (hp.symm.trans hb)
    have hlive := f.stores_of_owner (List.mem_append_left _ List.mem_cons_self) ha
    cases dead.symm.trans hlive

/-- A root that is taken out leaves what it held at first hand. -/
theorem dropRoot {p : Payload} (f : Forest w (p :: roots)) {w' : Host} {m : List Payload}
    (hp : p.asset = some a) (hev : Evolves w w')
    (hstores : ∀ b, w'.stores b = (!decide (b = a) && w.stores b))
    (hheld : ∀ b, owners (m ++ held w'.collections) b = owners (held w.collections) b)
    (hroots : ∀ q, Owned w.collections (p :: roots) q →
      q = p ∨ Owned w'.collections (m ++ roots) q) : Forest w' (m ++ roots) where
  next_pos := Nat.lt_of_lt_of_le f.next_pos hev.nextId_le
  bounded := hev.bounded f.bounded
  single b := by
    have hsum := f.single b
    rw [List.cons_append, owners_cons, owners_append, ← hheld, owners_append, hp] at hsum
    rw [owners_append, owners_append, hstores]
    by_cases hb : b = a
    · -- the root was its one owner, so it has none now
      subst hb
      have live : w.stores b = true :=
        f.stores_of_owner (List.mem_append_left _ List.mem_cons_self) hp
      rw [if_pos rfl, live, Bool.toNat_true] at hsum
      rw [decide_eq_true rfl, Bool.not_true, Bool.false_and, Bool.toNat_false]
      omega
    · have hne : ¬ (some a = some b) := fun e => hb (Option.some.inj e).symm
      rw [if_neg hne, Nat.add_zero] at hsum
      rw [decide_eq_false hb, Bool.not_false, Bool.true_and, ← hsum]
      omega
  rooted b hb := by
    rw [hstores, Bool.and_eq_true, Bool.not_eq_true', decide_eq_false_iff_not] at hb
    obtain ⟨q, hq, hqb⟩ := f.rooted b hb.2
    rcases hroots q hq with rfl | hq
    · exact absurd (Option.some.inj (hqb.symm.trans hp)) hb.1
    · exact ⟨q, hq, hqb⟩

/-- Freeing an array takes its root away. -/
theorem freeArray {p : Payload} {h : Handle} (f : Forest w (p :: roots))
    (hp : p.stored = some (.array, h)) : Forest (w.freeArray h) roots := by
  by_cases live : w.arrays.contains h = true
  · have hnull : h ≠ Handle.null := by
      rintro rfl
      cases (f.stores_null .array).symm.trans live
    refine f.dropRoot (m := []) (Payload.asset_eq_some.mpr ⟨hp, hnull⟩) (.freeArray w h)
      (fun b => ?_) (fun b => ?_) (fun q hq => ?_)
    · obtain ⟨v, k⟩ := b
      cases v with
      | array =>
        simp only [stores, Table.contains, get?_arrays_freeArray]
        by_cases hk : k = h <;> simp [hk]
      | collection => simp [stores]
      | node => simp [stores]
      | link => simp [stores]
    · rw [collections_freeArray, List.nil_append]
    · rw [collections_freeArray]
      exact (owned_cons_leaf (by rintro c rfl; cases hp)).mp hq
  · have hsame : w.freeArray h = w := by rw [Host.freeArray, if_neg live]
    rw [hsame]
    refine (cons_iff_of_asset_none ?_).mp f
    exact f.asset_none_of_dead hp (by rw [stores]; simpa using live)

/-- Taking a collection out makes roots of what its nodes hold. -/
theorem removeCollection {c : Handle} {nodes : List Node} (f : Forest w (.collection c :: roots))
    (found : w.collections.get? c = some nodes) :
    Forest (w.removeCollection c nodes) (nodes.map (·.payload) ++ roots) := by
  have live : w.stores (.collection, c) = true := Table.contains_of_get? found
  have hnull : c ≠ Handle.null := by
    rintro rfl
    cases (f.stores_null .collection).symm.trans live
  refine f.dropRoot (Payload.asset_eq_some.mpr ⟨rfl, hnull⟩) (.single (.removeCollection found))
    (fun b => ?_) (fun b => ?_) (fun q hq => (owned_cons_live found).mp hq)
  · obtain ⟨v, k⟩ := b
    cases v with
    | collection =>
      simp only [stores, collections_removeCollection, Table.contains_erase]
      by_cases hk : k = c <;> simp [hk]
    | _ => simp [stores]
  · rw [collections_removeCollection, owners_append, owners_held found]

/-- **Freeing takes roots away** with everything that they lead to. -/
theorem freeAll {work : List Payload} (f : Forest w (work ++ roots)) :
    Forest (w.freeAll work) roots := by
  fun_induction Host.freeAll w work with
  | case1 w => exact f
  | case2 w h rest ih => exact ih (f.freeArray rfl)
  | case3 w h rest ih => exact ih (f.freeArray rfl)
  | case4 w c rest dead ih =>
    have hdead : w.stores (.collection, c) = false := by rw [stores, Table.contains, dead]; rfl
    exact ih ((cons_iff_of_asset_none (f.asset_none_of_dead rfl hdead)).mp f)
  | case5 w c rest nodes found ih =>
    refine ih ?_
    rw [List.append_assoc]
    exact f.removeCollection found
  | case6 w p rest ht hn hc ih =>
    refine ih ((cons_iff_of_asset_none ?_).mp f)
    cases p with
    | tensor h => exact absurd rfl (ht h)
    | numericArray h => exact absurd rfl (hn h)
    | collection c => exact absurd rfl (hc c)
    | _ => rfl

theorem freeCollection {c : Handle} (f : Forest w (.collection c :: roots)) :
    Forest (w.freeCollection c) roots :=
  freeAll (by rwa [List.singleton_append])

/-! ## Copying -/

/-- A copied array is a new root, of whichever family. -/
theorem addArray? (f : Forest w roots) (d : Option Dense) {mk : Handle → Payload}
    (hmk : ∀ h, (mk h).stored = some (.array, h)) :
    Forest (w.addArray? d).2 ((w.addArray? d).1.toList.map mk ++ roots) := by
  cases d with
  | none => exact f
  | some d => exact f.addArray d (hmk _)

section Copying

variable {nested : Handle → Host → Option Handle × Host}

/-- What copying does to the roots: the copy is one more, if there is one. -/
def AddsRoot (w : Host) (r : Option Handle × Host) : Prop :=
  ∀ roots, Forest w roots → Forest r.2 (r.1.toList.map .collection ++ roots)

/-- Copied contents are a new root. -/
theorem copyPayload (hnested : ∀ c w, AddsRoot w (nested c w)) (f : Forest w roots) (p : Payload) :
    Forest (Host.copyPayload nested w p).2
      ((Host.copyPayload nested w p).1.toList ++ roots) := by
  cases p with
  | tensor h =>
    show Forest (w.copyArray h).2 (((w.copyArray h).1.map .tensor).toList ++ roots)
    rw [Option.toList_map]
    exact f.addArray? _ fun _ => rfl
  | numericArray h =>
    show Forest (w.copyArray h).2 (((w.copyArray h).1.map .numericArray).toList ++ roots)
    rw [Option.toList_map]
    exact f.addArray? _ fun _ => rfl
  | collection c =>
    show Forest (nested c w).2 (((nested c w).1.map .collection).toList ++ roots)
    rw [Option.toList_map]
    exact hnested c w roots f
  | _ => exact (cons_iff_of_asset_none rfl).mpr f

/-- While nodes are copied, the copy is a root. It stays one, or it is freed. -/
theorem copyNodes (hnested : ∀ c w, AddsRoot w (nested c w)) {copy : Handle} (hnull : copy ≠ Handle.null)
    (f : Forest w (.collection copy :: roots)) (nodes : List Node) :
    Forest (Host.copyNodes nested copy w nodes).2
      ((Host.copyNodes nested copy w nodes).1.toList.map .collection ++ roots) := by
  induction nodes generalizing w with
  | nil => exact f
  | cons n rest ih =>
    have f' := f.copyPayload hnested n.payload
    rw [Host.copyNodes]
    rcases hp : Host.copyPayload nested w n.payload with ⟨_ | p, w₁⟩
    · rw [hp] at f'
      exact f'.freeCollection
    · rw [hp] at f'
      exact ih (f'.appendNode List.mem_cons_self hnull n.name)

end Copying

/-- **A copy is a new root**, and a copy that fails changes no root. -/
theorem AddsRoot.copyRule : CopyRule fun _ => AddsRoot where
  none _ _ _ f := f
  nodes hnested _ _ nodes _ _ f :=
    f.newCollection.copyNodes hnested (Nat.ne_of_gt f.next_pos) nodes

theorem copyCollection (f : Forest w roots) (c : Handle) :
    Forest (w.copyCollection c).2 ((w.copyCollection c).1.toList.map .collection ++ roots) :=
  AddsRoot.copyRule.copyCollection w c roots f

/-! ## No way back -/

/-- One thing is held by nodes of one collection only. -/
theorem holder_unique (f : Forest w roots) {c d : Handle} {nodes nodes' : List Node} {n m : Node}
    (hc : w.collections.get? c = some nodes) (hd : w.collections.get? d = some nodes')
    (hn : n ∈ nodes) (hm : m ∈ nodes') (hna : n.payload.asset = some a)
    (hma : m.payload.asset = some a) : c = d := by
  by_contra hne
  have hle := f.owners_le_one a
  rw [owners_held hc] at hle
  have hfirst := owners_pos (List.mem_map_of_mem (f := (·.payload)) hn) hna
  have hmem : m.payload ∈ held (w.collections.erase c) :=
    mem_held.mpr ⟨d, nodes', m, (Table.get?_erase_of_ne _ (Ne.symm hne)).trans hd, hm, rfl⟩
  have hsecond := owners_pos hmem hma
  omega

/-- A root is held by no node. -/
theorem root_not_held (f : Forest w roots) {p : Payload} (hp : p.asset = some a) (hroot : p ∈ roots)
    (hheld : p ∈ held w.collections) : False := by
  have hle := f.owners_le_one a
  have hfirst := owners_pos hroot hp
  have hsecond := owners_pos hheld hp
  omega

/-- **Nothing contains itself.** The way from a root into a circle would own a collection that the
    circle owns already. -/
theorem not_owned_by_itself (f : Forest w roots) {q : Payload}
    (h : Owned w.collections roots q) : ∀ d nodes, q = .collection d →
      w.collections.get? d = some nodes →
        ¬ Owned w.collections (nodes.map (·.payload)) (.collection d) := by
  have asset : ∀ d nodes, w.collections.get? d = some nodes →
      (Payload.collection d).asset = some (.collection, d) := by
    intro d nodes found
    refine Payload.asset_eq_some.mpr ⟨rfl, ?_⟩
    rintro rfl
    cases (f.stores_null .collection).symm.trans (Table.contains_of_get? found)
  induction h with
  | @here p mem =>
    rintro d nodes rfl found hcycle
    refine f.root_not_held (asset d nodes found) mem (mem_held.mpr ?_)
    generalize hq : Payload.collection d = q at hcycle
    cases hcycle with
    | here hmem =>
      obtain ⟨m, hm, hmp⟩ := List.mem_map.mp hmem
      exact ⟨d, nodes, m, found, hm, hmp⟩
    | inside _ found' hm => exact ⟨_, _, _, found', hm, rfl⟩
  | @inside c nodes' n outer found' mem ih =>
    intro d nodes hn found hcycle
    have hna : n.payload.asset = some (.collection, d) := hn ▸ asset d nodes found
    -- what holds `d` inside the circle is what holds it on the way from the root
    have hback : Owned w.collections (nodes'.map (·.payload)) (.collection d) :=
      .here (List.mem_map.mpr ⟨n, mem, hn⟩)
    generalize hq : Payload.collection d = q at hcycle
    cases hcycle with
    | here hmem =>
      obtain ⟨m, hm, hmp⟩ := List.mem_map.mp hmem
      have hcd := f.holder_unique found' found mem hm hna (by rw [hmp, ← hq]; exact asset d nodes found)
      subst hcd
      obtain rfl := Option.some.inj (found'.symm.trans found)
      exact ih c nodes' rfl found hback
    | @inside e nodes'' m outer' found'' hm =>
      have hce := f.holder_unique found' found'' mem hm hna (by rw [← hq]; exact asset d nodes found)
      subst hce
      refine ih c nodes' rfl found' (outer'.grow (fun _ nodes found => ⟨nodes, found, fun _ h => h⟩) ?_)
      intro r hr
      obtain ⟨k, hk, rfl⟩ := List.mem_map.mp hr
      exact .inside hback found hk

/-- Collections contain no way back to themselves. -/
theorem acyclic (f : Forest w roots) (c : Handle) : Acyclic w.collections c := by
  intro d nodes _ found
  obtain ⟨q, hq, hqa⟩ := f.rooted (.collection, d) (Table.contains_of_get? found)
  refine f.not_owned_by_itself hq d nodes ?_ found
  have hs := (Payload.asset_eq_some.mp hqa).1
  cases q with
  | collection e => exact congrArg _ (Prod.mk.inj (Option.some.inj hs)).2
  | _ => cases hs

end Forest

end Host

end Marshal
