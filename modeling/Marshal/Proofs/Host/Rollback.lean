import Marshal.Proofs.Host.Forest

/-!
# `Proofs.Host.Rollback` — a copy that fails leaves nothing behind

A copy that fails has made things on the way: the collection that was to be the copy, copies of its
first nodes, and collections further down that were finished or given up. All of them have new
numbers, so what there was before has stayed as it was. And all of them hang on the copy: whatever has
a new number is owned by a copy that is still going on, or is a node in something that is. When a copy
is freed nothing is left that hung on it alone, so at the outermost level nothing is left at all.

## Contents

* `Leads`, `Hangs`, `HangsOn` — what contents lead to, and that there is nothing else from a number on;
* `Hangs.addArray?`, `Hangs.appendNode`, `Hangs.freeAll`, … — what the steps of copying do to it;
* `HangsOn.copyRule` — copying, whether it succeeds or not;
* `Restored` — the tables are what they were;
* `copyCollection_restored` — a copy that fails leaves nothing behind.
-/

namespace Marshal.Host

open Marshal.Text

/-! ## Leading to things -/

/-- Contents lead to what a number names: they own the array or the collection, or the collection
    that the node is in. Nothing leads to a link. -/
def Leads (live : Table (List Node)) (work : List Payload) : Use → Handle → Prop
  | .array, h => OwnsArray live work h
  | .collection, c => Owned live work (.collection c)
  | .node, id => OwnsNode live work id
  | .link, _ => False

section Leading

variable {live live' : Table (List Node)} {work work' : List Payload} {u : Use} {h : Handle}

/-- Contents that the host stores under a number lead to what the number names. -/
theorem leads_of_owned {p : Payload} (hp : p.stored = some (u, h)) (hown : Owned live work p) :
    Leads live work u h := by
  cases p <;> cases hp
  · exact .inl hown
  · exact .inr hown
  · exact hown

/-- What contents lead to, larger collections and more contents lead to as well. -/
theorem Leads.grow (hlead : Leads live work u h)
    (hlive : ∀ c nodes, live.get? c = some nodes →
      ∃ nodes', live'.get? c = some nodes' ∧ ∀ n ∈ nodes, n ∈ nodes')
    (hwork : ∀ p ∈ work, Owned live' work' p) : Leads live' work' u h := by
  cases u with
  | array => exact hlead.imp (.grow hlive hwork) (.grow hlive hwork)
  | collection => exact Owned.grow hlive hwork hlead
  | node =>
    obtain ⟨c, nodes, hc, found, mem⟩ := hlead
    obtain ⟨nodes', found', hsub⟩ := hlive c nodes found
    exact ⟨c, nodes', hc.grow hlive hwork, found', List.map_subset _ hsub mem⟩
  | link => exact hlead

/-- More contents lead to more. -/
theorem Leads.mono (hlead : Leads live work u h) (hsub : ∀ p ∈ work, p ∈ work') :
    Leads live work' u h :=
  hlead.grow (fun _ nodes found => ⟨nodes, found, fun _ hn => hn⟩) fun p hp => .here (hsub p hp)

end Leading

/-- Freeing contents takes the names away that they lead to, and no others. -/
theorem names_freeAll (w : Host) (work : List Payload) (u : Use) (h : Handle) :
    (w.freeAll work).names u h = true ↔ w.names u h = true ∧ ¬ Leads w.collections work u h := by
  have gone : ∀ {α : Type} (found : Option α) (p : Prop) [Decidable p],
      (if p then none else found).isSome = true ↔ found.isSome = true ∧ ¬ p := by
    intro α found p _
    split <;> simp_all
  classical
  cases u with
  | array => rw [names, Table.contains, get?_arrays_freeAll]; exact gone ..
  | collection => rw [names, Table.contains, get?_collections_freeAll]; exact gone ..
  | node => rw [names, Table.contains, get?_places_freeAll]; exact gone ..
  | link =>
    obtain ⟨-, hlinks, -⟩ := freeAll_frame w work
    rw [names, hlinks]
    exact ⟨fun hn => ⟨hn, id⟩, And.left⟩

/-- **What two lists of contents lead to**, one of them leads to, and if the first one does not then
    the second one still does when the first one has been freed: the way there does not go through
    anything that has been taken out. -/
theorem Leads.split {w : Host} {work rest : List Payload} {u : Use} {h : Handle}
    (hlead : Leads w.collections (work ++ rest) u h) :
    Leads w.collections work u h ∨ Leads (w.freeAll work).collections rest u h := by
  classical
  have kept : ∀ {c nodes}, w.collections.get? c = some nodes →
      ¬ Owned w.collections work (.collection c) →
      (w.freeAll work).collections.get? c = some nodes := by
    intro c nodes found hnot
    rw [get?_collections_freeAll, if_neg hnot, found]
  have owned : ∀ p, Owned w.collections (work ++ rest) p →
      Owned w.collections work p ∨ Owned (w.freeAll work).collections rest p := by
    intro p hp
    induction hp with
    | here mem => exact (List.mem_append.mp mem).imp .here .here
    | @inside c nodes n _ found mem ih =>
      by_cases hc : Owned w.collections work (.collection c)
      · exact .inl (.inside hc found mem)
      · exact .inr (.inside (ih.resolve_left hc) (kept found hc) mem)
  cases u with
  | array =>
    rcases hlead with hlead | hlead
    · exact (owned _ hlead).imp .inl .inl
    · exact (owned _ hlead).imp .inr .inr
  | collection => exact owned _ hlead
  | node =>
    obtain ⟨c, nodes, hc, found, mem⟩ := hlead
    by_cases hown : Owned w.collections work (.collection c)
    · exact .inl ⟨c, nodes, hown, found, mem⟩
    · exact .inr ⟨c, nodes, (owned _ hc).resolve_left hown, kept found hown, mem⟩
  | link => exact hlead.elim

/-! ## Nothing else is there -/

/-- **Whatever has a number from `b` on hangs on given contents**: they lead to it. -/
structure Hangs (b : Handle) (roots : List Payload) (w : Host) : Prop where
  bounded : Bounded w
  leads : ∀ u h, u ≠ .link → b ≤ h → w.names u h = true → Leads w.collections roots u h

/-- What copying does to what hangs there: what has been made hangs on the copy if there is one, and
else on what it hung on before. -/
structure HangsOn (w : Host) (r : Option Handle × Host) : Prop extends Framed w r where
  hangs : ∀ b roots, Hangs b roots w → Hangs b (r.1.toList.map .collection ++ roots) r.2

namespace Hangs

variable {b : Handle} {w : Host} {roots : List Payload}

/-- Nothing has a number that has not been given out. -/
theorem start (bounded : Bounded w) : Hangs w.nextId [] w :=
  ⟨bounded, fun u h _ hb hn => absurd (bounded u h hn) (Nat.not_lt.mpr hb)⟩

/-- New contents that lead to nothing new do no harm. -/
theorem cons (f : Hangs b roots w) (p : Payload) : Hangs b (p :: roots) w :=
  ⟨f.bounded, fun u h hu hb hn => (f.leads u h hu hb hn).mono fun _ => List.mem_cons_of_mem _⟩

theorem addArray? (f : Hangs b roots w) (d : Option Dense) {mk : Handle → Payload}
    (hmk : ∀ h, (mk h).stored = some (.array, h)) :
    Hangs b ((w.addArray? d).1.toList.map mk ++ roots) (w.addArray? d).2 := by
  cases d with
  | none => exact f
  | some d =>
    refine ⟨(Evolves.addArray? w (some d)).bounded f.bounded, fun u h hu hb hn => ?_⟩
    have hold := names_addArray w d u h
    rcases Bool.or_eq_true_iff.mp (hold.symm.trans hn) with hnew | hold
    · obtain ⟨rfl, rfl⟩ := of_decide_eq_true hnew
      exact leads_of_owned (hmk _) (.here List.mem_cons_self)
    · exact (f.leads u h hu hb hold).mono fun _ => List.mem_cons_of_mem _

theorem newCollection (f : Hangs b roots w) :
    Hangs b (.collection w.nextId :: roots) w.newCollection.2 := by
  refine ⟨(Evolves.single (.collection w)).bounded f.bounded, fun u h hu hb hn => ?_⟩
  rcases Bool.or_eq_true_iff.mp ((names_newCollection w u h).symm.trans hn) with hnew | hold
  · obtain ⟨rfl, rfl⟩ := of_decide_eq_true hnew
    exact Owned.here List.mem_cons_self
  · refine (f.leads u h hu hb hold).grow (fun c nodes found => ⟨nodes, ?_, fun _ hn => hn⟩)
      fun p hp => .here (List.mem_cons_of_mem _ hp)
    exact (Table.get?_insert_of_ne _ _ (Nat.ne_of_lt (f.bounded.collection_lt found))).trans found

/-- A node is in the collection that it is put into, and so is what it holds. -/
theorem appendNode {p : Payload} (f : Hangs b (p :: roots) w) {c : Handle} {nodes : List Node}
    (hc : .collection c ∈ roots) (live : w.collections.get? c = some nodes) (name : Option Bytes) :
    Hangs b roots (w.appendNode c name p) := by
  refine ⟨(Evolves.appendNode w c name p).bounded f.bounded, fun u h hu hb hn => ?_⟩
  have found : (w.appendNode c name p).collections.get? c =
      some (nodes ++ [⟨w.nextId, name, p⟩]) := by
    rw [appendNode_of_live live]
    exact Table.get?_insert_self ..
  rcases Bool.or_eq_true_iff.mp ((names_appendNode live name p u h).symm.trans hn) with hnew | hold
  · obtain ⟨rfl, rfl⟩ := of_decide_eq_true hnew
    exact ⟨c, _, .here hc, found, by simp⟩
  · refine (f.leads u h hu hb hold).grow (fun d nodes' found' => ?_) fun q hq => ?_
    · by_cases hd : d = c
      · subst hd
        obtain rfl := Option.some.inj (live.symm.trans found')
        exact ⟨_, found, fun n hn => List.mem_append_left _ hn⟩
      · refine ⟨nodes', ?_, fun _ hn => hn⟩
        rw [appendNode_of_live live]
        exact (Table.get?_insert_of_ne _ _ hd).trans found'
    · rcases List.mem_cons.mp hq with rfl | hq
      · have hnew : (⟨w.nextId, name, q⟩ : Node) ∈ nodes ++ [⟨w.nextId, name, q⟩] := by simp
        exact .inside (.here hc) found hnew
      · exact .here hq

/-- What hung on freed contents alone is gone. -/
theorem freeAll {work : List Payload} (f : Hangs b (work ++ roots) w) :
    Hangs b roots (w.freeAll work) := by
  refine ⟨(Evolves.freeAll w work).bounded f.bounded, fun u h hu hb hn => ?_⟩
  obtain ⟨hnamed, hnot⟩ := (names_freeAll w work u h).mp hn
  exact (f.leads u h hu hb hnamed).split.resolve_left hnot

/-! ### Copying -/

section Copying

variable {nested : Handle → Host → Option Handle × Host}

/-- What has been made for contents hangs on their copy, if there is one. -/
theorem copyPayload (hnested : ∀ c w, HangsOn w (nested c w)) (f : Hangs b roots w) (p : Payload) :
    Hangs b ((Host.copyPayload nested w p).1.toList ++ roots) (Host.copyPayload nested w p).2 := by
  cases p with
  | tensor h =>
    show Hangs b (((w.copyArray h).1.map .tensor).toList ++ roots) (w.copyArray h).2
    rw [Option.toList_map]
    exact f.addArray? _ fun _ => rfl
  | numericArray h =>
    show Hangs b (((w.copyArray h).1.map .numericArray).toList ++ roots) (w.copyArray h).2
    rw [Option.toList_map]
    exact f.addArray? _ fun _ => rfl
  | collection c =>
    show Hangs b (((nested c w).1.map .collection).toList ++ roots) (nested c w).2
    rw [Option.toList_map]
    exact (hnested c w).hangs b roots f
  | _ => exact f.cons _

/-- **Node by node.** What has been made so far hangs on the copy, until it is finished or given up
    and freed. -/
theorem copyNodes (hnested : ∀ c w, HangsOn w (nested c w)) {copy : Handle}
    (f : Hangs b (.collection copy :: roots) w) (live : w.collections.contains copy = true)
    (nodes : List Node) :
    Hangs b ((Host.copyNodes nested copy w nodes).1.toList.map .collection ++ roots)
      (Host.copyNodes nested copy w nodes).2 := by
  induction nodes generalizing w with
  | nil => exact f
  | cons n rest ih =>
    have f' := f.copyPayload hnested n.payload
    obtain ⟨held, found⟩ := Table.contains_iff.mp live
    -- copying contents changes new numbers only, so the copy is still there
    obtain ⟨kept, -⟩ := (Confined.refl (Nat.le_refl _) f.bounded.closed).copyPayload
      (fun c w h => (hnested c w).confined h) n.payload
    have found' := (kept.collections copy (f.bounded.collection_lt found)).trans found
    rw [Host.copyNodes]
    rcases hp : Host.copyPayload nested w n.payload with ⟨_ | p, w₁⟩
    · rw [hp] at f'
      have given_up : Hangs b ([.collection copy] ++ roots) w₁ := f'
      exact given_up.freeAll
    · rw [hp] at f' found'
      refine ih (f'.appendNode List.mem_cons_self found' n.name) ?_
      rw [appendNode_of_live found']
      exact Table.contains_of_get? (Table.get?_insert_self ..)

end Copying

end Hangs

/-- **Copying**, whether it succeeds or not. -/
theorem HangsOn.copyRule : CopyRule fun _ => HangsOn where
  none c w := ⟨Framed.copyRule.none c w, fun _ _ f => f⟩
  nodes hnested c w nodes found := by
    refine ⟨Framed.copyRule.nodes (fun c w => (hnested c w).toFramed) found, fun b roots f => ?_⟩
    exact f.newCollection.copyNodes hnested (Table.contains_of_get? (Table.get?_insert_self ..)) nodes

/-! ## What is left -/

/-- Nothing is released that has not been given out. -/
theorem Evolves.releasesOf_late {w w' : Host} (hev : Evolves w w') (bounded : Bounded w)
    {h : Handle} (late : w'.nextId ≤ h) : w'.releasesOf h = w.releasesOf h := by
  obtain ⟨made, hmade⟩ := hev
  induction hmade with
  | refl => rfl
  | @tail w' w'' made more before step ih =>
    have hw' : w'.nextId ≤ h := Nat.le_trans step.nextId_le late
    have bounded' : Bounded w' := Evolves.bounded ⟨made, before⟩ bounded
    refine Eq.trans ?_ (ih hw')
    cases step with
    | node live name payload =>
      rw [appendNode_of_live live]
      rfl
    | @freeArray k live =>
      have hne : h ≠ k := by
        rintro rfl
        exact absurd (bounded' .array h live) (Nat.not_lt.mpr hw')
      rw [releasesOf_freeArray, if_neg fun hh => hne hh.1]
    | @removeCollection c nodes live =>
      have hne : h ≠ c := by
        rintro rfl
        exact absurd (bounded'.collection_lt live) (Nat.not_lt.mpr hw')
      rw [releasesOf_removeCollection, if_neg hne]
    | _ => rfl

/-- **The tables are what they were.** Numbers may have been given out, and releases are counted for
    these numbers at most. -/
structure Restored (w w' : Host) : Prop where
  next : w.nextId ≤ w'.nextId
  arrays : ∀ h, w'.arrays.get? h = w.arrays.get? h
  collections : ∀ c, w'.collections.get? c = w.collections.get? c
  places : ∀ id, w'.places.get? id = w.places.get? id
  links : w'.links = w.links
  releases : ∀ h, h < w.nextId ∨ w'.nextId ≤ h → w'.releasesOf h = w.releasesOf h

namespace Restored

variable {w w' : Host}

theorem refl (w : Host) : Restored w w :=
  ⟨Nat.le_refl _, fun _ => rfl, fun _ => rfl, fun _ => rfl, rfl, fun _ _ => rfl⟩

/-- Changes to new numbers, after which no new number names anything. -/
theorem of_confined (bounded : Bounded w) (hev : Evolves w w') (confined : Confined w.nextId w w')
    (hangs : Hangs w.nextId [] w') : Restored w w' := by
  have before : ∀ u h, w.nextId ≤ h → ¬ w.names u h = true :=
    fun u h hb hn => absurd (bounded u h hn) (Nat.not_lt.mpr hb)
  have after : ∀ u h, u ≠ .link → w.nextId ≤ h → ¬ w'.names u h = true := by
    intro u h hu hb hn
    have hlead := hangs.leads u h hu hb hn
    cases u with
    | array => exact hlead.elim not_owned_nil not_owned_nil
    | collection => exact not_owned_nil hlead
    | node =>
      obtain ⟨c, nodes, hc, -⟩ := hlead
      exact not_owned_nil hc
    | link => exact hu rfl
  -- a table that is the same below the new numbers and has nothing from there on is the same
  have same : ∀ {α : Type} {t t' : Table α}, (∀ h < w.nextId, t'.get? h = t.get? h) →
      (∀ h, w.nextId ≤ h → ¬ t.contains h = true) →
      (∀ h, w.nextId ≤ h → ¬ t'.contains h = true) → ∀ h, t'.get? h = t.get? h := by
    intro α t t' below none none' h
    by_cases hb : h < w.nextId
    · exact below h hb
    · have hb' := Nat.not_lt.mp hb
      exact (Table.get?_of_not_contains (none' h hb')).trans
        (Table.get?_of_not_contains (none h hb')).symm
  refine ⟨confined.next, ?_, ?_, ?_, confined.links, fun h hh => ?_⟩
  · exact same confined.arrays (before .array) fun h => after .array h (by decide)
  · exact same confined.collections (before .collection) fun h => after .collection h (by decide)
  · exact same confined.places (before .node) fun h => after .node h (by decide)
  · exact hh.elim (confined.releases h) (hev.releasesOf_late bounded)

/-- As many arrays and collections are live as before. -/
theorem liveCount (r : Restored w w') : w'.liveCount = w.liveCount := by
  have size : ∀ {α : Type} {t t' : Table α}, (∀ h, t'.get? h = t.get? h) → t'.size = t.size := by
    intro α t t' same
    refine List.Perm.length_eq ((List.perm_ext_iff_of_nodup t'.distinct.of_map t.distinct.of_map).mpr ?_)
    rintro ⟨h, a⟩
    rw [Table.mem_entries_iff, Table.mem_entries_iff, same]
  rw [Host.liveCount, Host.liveCount, size r.arrays, size r.collections]

end Restored

/-- An array that is made and freed again leaves nothing behind. -/
theorem freeArray_restored {w : Host} (bounded : Bounded w) (d : Dense) :
    Restored w ((w.addArray d).2.freeArray w.nextId) := by
  have unnamed : w.arrays.get? w.nextId = none :=
    Table.get?_of_not_contains fun hn => Nat.lt_irrefl _ (bounded .array _ hn)
  have hnext : ((w.addArray d).2.freeArray w.nextId).nextId = w.nextId + 1 := nextId_freeArray ..
  refine ⟨?_, fun h => ?_, fun c => ?_, fun id => ?_, ?_, fun h hh => ?_⟩
  · rw [hnext]
    exact Nat.le_succ _
  · have hget : (w.addArray d).2.arrays.get? h = if h = w.nextId then some d else w.arrays.get? h :=
      Table.get?_insert ..
    rw [get?_arrays_freeArray, hget]
    by_cases hn : h = w.nextId
    · rw [if_pos hn, hn, unnamed]
    · rw [if_neg hn, if_neg hn]
  · rw [collections_freeArray]
    rfl
  · rw [places_freeArray]
    rfl
  · rw [links_freeArray]
    rfl
  · have hne : h ≠ w.nextId := by
      rw [hnext] at hh
      exact hh.elim Nat.ne_of_lt Nat.ne_of_gt
    rw [releasesOf_freeArray, if_neg fun hk => hne hk.1]
    rfl

/-- **A copy that fails leaves nothing behind**, at whatever node and however deep it fails. Nothing
    is assumed about the collections, and the handles in them can be any numbers. -/
theorem copyCollection_restored {w : Host} (bounded : Bounded w) {c : Handle}
    (failed : (w.copyCollection c).1 = none) : Restored w (w.copyCollection c).2 := by
  have hangs := (HangsOn.copyRule.copyCollection w c).hangs w.nextId [] (Hangs.start bounded)
  rw [failed] at hangs
  exact .of_confined bounded (.copyCollection w c)
    ((Confined.refl (Nat.le_refl _) bounded.closed).copyCollection c).1 hangs

end Marshal.Host
