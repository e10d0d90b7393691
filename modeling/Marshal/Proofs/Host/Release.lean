import Marshal.Proofs.Host.History

/-!
# `Proofs.Host.Release` — freeing a collection releases exactly what it owns

Freeing works off a list of contents while the collections that it looks at are being taken out. That
is as good as following the containment that was there at the start: an already freed collection has
had its nodes put on the list when it was freed. So nothing is assumed about the collections here.
They may contain each other in circles, hold the same handle many times, or hold handles that are
null, dead or of the wrong sort.

## Contents

* `Owned`, `OwnsArray`, `OwnsNode` — what contents own, by following collections;
* `freeAll_append`, `freeCollection_of_live` — the work list is the recursion over nodes;
* `get?_arrays_freeAll`, `get?_collections_freeAll`, … — what freeing leaves of each table;
* `freeCollection_spec` — what freeing a collection does, on any collections whatsoever.
-/

namespace Marshal.Host

/-! ## Owning -/

/-- What contents own: themselves, and what is held by the nodes of a live collection that they own. -/
inductive Owned (live : Table (List Node)) (work : List Payload) : Payload → Prop
  | here {p : Payload} (mem : p ∈ work) : Owned live work p
  | inside {c : Handle} {nodes : List Node} {n : Node} (outer : Owned live work (.collection c))
      (found : live.get? c = some nodes) (mem : n ∈ nodes) : Owned live work n.payload

/-- Whether contents own an array, as either family. -/
def OwnsArray (live : Table (List Node)) (work : List Payload) (h : Handle) : Prop :=
  Owned live work (.tensor h) ∨ Owned live work (.numericArray h)

/-- Whether contents own the collection that a node is in. -/
def OwnsNode (live : Table (List Node)) (work : List Payload) (id : Handle) : Prop :=
  ∃ c nodes, Owned live work (.collection c) ∧ live.get? c = some nodes ∧ id ∈ nodes.map (·.id)

section Owning

variable {live : Table (List Node)} {work rest : List Payload} {p q : Payload}

/-- Owning is following one thing at a time. -/
theorem Owned.trans (hq : Owned live work q) (hp : Owned live [q] p) : Owned live work p := by
  induction hp with
  | here mem => exact List.mem_singleton.mp mem ▸ hq
  | inside _ found mem ih => exact .inside ih found mem

theorem Owned.mono (hsub : ∀ q ∈ work, q ∈ rest) (hp : Owned live work p) : Owned live rest p := by
  induction hp with
  | here mem => exact .here (hsub _ mem)
  | inside _ found mem ih => exact .inside ih found mem

theorem not_owned_nil : ¬ Owned live [] p := by
  intro hp
  induction hp with
  | here mem => exact absurd mem List.not_mem_nil
  | inside _ _ _ ih => exact ih

/-- What is no live collection owns itself only. -/
theorem owned_cons_leaf (leaf : ∀ c, q = .collection c → live.get? c = none) :
    Owned live (q :: rest) p ↔ p = q ∨ Owned live rest p := by
  constructor
  · intro hp
    induction hp with
    | here mem =>
      rcases List.mem_cons.mp mem with heq | mem
      · exact .inl heq
      · exact .inr (.here mem)
    | @inside c nodes n outer found mem ih =>
      rcases ih with heq | outer
      · rw [leaf c heq.symm] at found
        cases found
      · exact .inr (.inside outer found mem)
  · rintro (rfl | hp)
    · exact .here List.mem_cons_self
    · exact hp.mono fun _ => List.mem_cons_of_mem _

/-- **A live collection may be taken out once its nodes are on the list.** A path back to it finds it
gone, but then what it led to is on the list already. -/
theorem owned_cons_live {c : Handle} {nodes : List Node} (found : live.get? c = some nodes) :
    Owned live (.collection c :: rest) p ↔
      p = .collection c ∨ Owned (live.erase c) (nodes.map (·.payload) ++ rest) p := by
  constructor
  · intro hp
    induction hp with
    | here mem =>
      rcases List.mem_cons.mp mem with heq | mem
      · exact .inl heq
      · exact .inr (.here (List.mem_append_right _ mem))
    | @inside d nodes' n outer found' mem ih =>
      right
      by_cases hd : d = c
      · -- the way comes back to `c`, so it can be cut short
        subst hd
        rw [found, Option.some.injEq] at found'
        subst found'
        exact .here (List.mem_append_left _ (List.mem_map_of_mem mem))
      · have outer' : Owned (live.erase c) (nodes.map (·.payload) ++ rest) (.collection d) :=
          ih.resolve_left fun heq => hd (Payload.collection.inj heq)
        exact .inside outer' (by rw [Table.get?_erase_of_ne _ hd, found']) mem
  · rintro (rfl | hp)
    · exact .here List.mem_cons_self
    · induction hp with
      | here mem =>
        rcases List.mem_append.mp mem with mem | mem
        · obtain ⟨n, hn, rfl⟩ := List.mem_map.mp mem
          exact .inside (.here List.mem_cons_self) found hn
        · exact .here (List.mem_cons_of_mem _ mem)
      | @inside d nodes' n _ found' mem ih =>
        rw [Table.get?_erase] at found'
        split at found'
        · cases found'
        · exact .inside ih found' mem

theorem ownsArray_cons_leaf {h : Handle} (leaf : ∀ c, q = .collection c → live.get? c = none) :
    OwnsArray live (q :: rest) h ↔ (q = .tensor h ∨ q = .numericArray h) ∨ OwnsArray live rest h := by
  unfold OwnsArray
  rw [owned_cons_leaf leaf, owned_cons_leaf leaf, eq_comm, @eq_comm _ _ q]
  exact or_or_or_comm

theorem ownsArray_cons_live {h c : Handle} {nodes : List Node} (found : live.get? c = some nodes) :
    OwnsArray live (.collection c :: rest) h ↔
      OwnsArray (live.erase c) (nodes.map (·.payload) ++ rest) h := by
  unfold OwnsArray
  rw [owned_cons_live found, owned_cons_live found]
  simp

theorem ownsNode_cons_leaf {id : Handle} (leaf : ∀ c, q = .collection c → live.get? c = none) :
    OwnsNode live (q :: rest) id ↔ OwnsNode live rest id := by
  constructor
  · rintro ⟨c, nodes, hc, found, mem⟩
    rcases (owned_cons_leaf leaf).mp hc with heq | hc
    · rw [leaf c heq.symm] at found
      cases found
    · exact ⟨c, nodes, hc, found, mem⟩
  · rintro ⟨c, nodes, hc, found, mem⟩
    exact ⟨c, nodes, (owned_cons_leaf leaf).mpr (.inr hc), found, mem⟩

theorem ownsNode_cons_live {id c : Handle} {nodes : List Node} (found : live.get? c = some nodes) :
    OwnsNode live (.collection c :: rest) id ↔
      id ∈ nodes.map (·.id) ∨ OwnsNode (live.erase c) (nodes.map (·.payload) ++ rest) id := by
  constructor
  · rintro ⟨d, nodes', hd, found', mem⟩
    by_cases hdc : d = c
    · subst hdc
      rw [found, Option.some.injEq] at found'
      exact .inl (found' ▸ mem)
    · refine .inr ⟨d, nodes', ?_, by rw [Table.get?_erase_of_ne _ hdc, found'], mem⟩
      exact ((owned_cons_live found).mp hd).resolve_left fun heq => hdc (Payload.collection.inj heq)
  · rintro (mem | ⟨d, nodes', hd, found', mem⟩)
    · exact ⟨c, nodes, .here List.mem_cons_self, found, mem⟩
    · rw [Table.get?_erase] at found'
      split at found'
      · cases found'
      · exact ⟨d, nodes', (owned_cons_live found).mpr (.inr hd), found', mem⟩

end Owning

/-! ## The work list is the recursion -/

/-- Working off two lists is working off one after the other. -/
theorem freeAll_append (w : Host) (work more : List Payload) :
    w.freeAll (work ++ more) = (w.freeAll work).freeAll more := by
  fun_induction freeAll w work with
  | case1 w => rfl
  | case2 w h rest ih => rw [List.cons_append, freeAll, ih]
  | case3 w h rest ih => rw [List.cons_append, freeAll, ih]
  | case4 w c rest dead ih =>
    rw [List.cons_append, freeAll]
    split
    · exact ih
    · next found => rw [dead] at found; cases found
  | case5 w c rest nodes found ih =>
    rw [List.cons_append, freeAll]
    split
    · next dead => rw [found] at dead; cases dead
    · next nodes' found' =>
      rw [found, Option.some.injEq] at found'
      subst found'
      rw [← List.append_assoc, ih]
  | case6 w p rest ht hn hc ih =>
    rw [List.cons_append, freeAll]
    · exact ih
    all_goals assumption

/-- Freeing a live collection takes it out and then frees its nodes in their order. -/
theorem freeCollection_of_live {w : Host} {c : Handle} {nodes : List Node}
    (found : w.collections.get? c = some nodes) :
    w.freeCollection c =
      nodes.foldl (fun w n => w.freeAll [n.payload]) (w.removeCollection c nodes) := by
  have hfold : ∀ (nodes : List Node) (w : Host),
      w.freeAll (nodes.map (·.payload)) = nodes.foldl (fun w n => w.freeAll [n.payload]) w := by
    intro nodes
    induction nodes with
    | nil => intro w; simp [freeAll]
    | cons n rest ih =>
      intro w
      rw [List.map_cons, List.foldl_cons, ← ih, ← freeAll_append, List.singleton_append]
  rw [freeCollection, freeAll]
  split
  · next dead => rw [found] at dead; cases dead
  · next nodes' found' =>
    rw [found, Option.some.injEq] at found'
    subst found'
    rw [List.append_nil, hfold]

/-! ## What freeing leaves

The work list decides each time whether its first entry leads anywhere, so the lemmas go through the
cases of `freeAll`. -/

section Freeing

open scoped Classical

/-- What freeing never touches. -/
theorem freeAll_frame (w : Host) (work : List Payload) :
    (w.freeAll work).nextId = w.nextId ∧ (w.freeAll work).links = w.links ∧
      (w.freeAll work).currentLink = w.currentLink ∧
      (w.freeAll work).abortRequested = w.abortRequested ∧
      (w.freeAll work).denied = w.denied := by
  have single : ∀ (w : Host) (h : Handle),
      (w.freeArray h).nextId = w.nextId ∧ (w.freeArray h).links = w.links ∧
        (w.freeArray h).currentLink = w.currentLink ∧
        (w.freeArray h).abortRequested = w.abortRequested ∧
        (w.freeArray h).denied = w.denied := by
    intro w h
    unfold freeArray
    split <;> exact ⟨rfl, rfl, rfl, rfl, rfl⟩
  fun_induction freeAll w work with
  | case1 w => exact ⟨rfl, rfl, rfl, rfl, rfl⟩
  | case2 w h rest ih =>
    obtain ⟨h1, h2, h3, h4, h5⟩ := single w h
    rwa [h1, h2, h3, h4, h5] at ih
  | case3 w h rest ih =>
    obtain ⟨h1, h2, h3, h4, h5⟩ := single w h
    rwa [h1, h2, h3, h4, h5] at ih
  | case4 w c rest dead ih => exact ih
  | case5 w c rest nodes found ih => exact ih
  | case6 w p rest _ _ _ ih => exact ih

/-- The collections that are owned go, and no others. -/
theorem get?_collections_freeAll (w : Host) (work : List Payload) (c : Handle) :
    (w.freeAll work).collections.get? c =
      if Owned w.collections work (.collection c) then none else w.collections.get? c := by
  fun_induction freeAll w work with
  | case1 w => rw [if_neg not_owned_nil]
  | case2 w h rest ih => simpa [owned_cons_leaf] using ih
  | case3 w h rest ih => simpa [owned_cons_leaf] using ih
  | case4 w d rest dead ih =>
    rw [ih, owned_cons_leaf fun e he => Payload.collection.inj he ▸ dead]
    by_cases hcd : c = d
    · rw [hcd, dead, ite_self, ite_self]
    · simp [hcd]
  | case5 w d rest nodes found ih =>
    rw [ih, owned_cons_live found, collections_removeCollection, Table.get?_erase]
    by_cases hcd : c = d
    · simp [hcd]
    · simp [hcd]
  | case6 w p rest _ _ hp ih =>
    have hne : Payload.collection c ≠ p := fun he => hp c he.symm
    rw [ih, owned_cons_leaf fun e he => absurd he (hp e)]
    simp [hne]

/-- The arrays that are owned go, and no others. -/
theorem get?_arrays_freeAll (w : Host) (work : List Payload) (h : Handle) :
    (w.freeAll work).arrays.get? h =
      if OwnsArray w.collections work h then none else w.arrays.get? h := by
  fun_induction freeAll w work with
  | case1 w => rw [if_neg (by rintro (hp | hp) <;> exact not_owned_nil hp)]
  | case2 w k rest ih =>
    rw [ih, ownsArray_cons_leaf (by simp), collections_freeArray, get?_arrays_freeArray]
    by_cases hk : h = k
    · simp [hk]
    · simp [hk, Ne.symm hk]
  | case3 w k rest ih =>
    rw [ih, ownsArray_cons_leaf (by simp), collections_freeArray, get?_arrays_freeArray]
    by_cases hk : h = k
    · simp [hk]
    · simp [hk, Ne.symm hk]
  | case4 w d rest dead ih =>
    rw [ih, ownsArray_cons_leaf fun e he => Payload.collection.inj he ▸ dead]
    simp
  | case5 w d rest nodes found ih =>
    rw [ih, ownsArray_cons_live found, collections_removeCollection, arrays_removeCollection]
  | case6 w p rest ht hn hp ih =>
    have hnt : p ≠ .tensor h := ht h
    have hnn : p ≠ .numericArray h := hn h
    rw [ih, ownsArray_cons_leaf fun e he => absurd he (hp e)]
    simp [hnt, hnn]

/-- The places go that belong to collections that go. -/
theorem get?_places_freeAll (w : Host) (work : List Payload) (id : Handle) :
    (w.freeAll work).places.get? id =
      if OwnsNode w.collections work id then none else w.places.get? id := by
  fun_induction freeAll w work with
  | case1 w => rw [if_neg (by rintro ⟨_, _, hp, _⟩; exact not_owned_nil hp)]
  | case2 w h rest ih => simpa [ownsNode_cons_leaf] using ih
  | case3 w h rest ih => simpa [ownsNode_cons_leaf] using ih
  | case4 w d rest dead ih => rw [ih, ownsNode_cons_leaf fun e he => Payload.collection.inj he ▸ dead]
  | case5 w d rest nodes found ih =>
    rw [ih, ownsNode_cons_live found, collections_removeCollection, get?_places_removeCollection]
    by_cases hid : id ∈ nodes.map (·.id)
    · simp only [hid, true_or, if_true, ite_self]
    · simp only [hid, false_or, if_false]
  | case6 w p rest _ _ hp ih => rw [ih, ownsNode_cons_leaf fun e he => absurd he (hp e)]

/-- What freeing takes out, it counts. -/
theorem tally_freeAll (w : Host) (work : List Payload) (h : Handle) :
    (w.freeAll work).tally h = w.tally h := by
  have single : ∀ (w : Host) (k : Handle), (w.freeArray k).tally h = w.tally h := by
    intro w k
    by_cases live : w.arrays.contains k = true
    · exact tally_freeArray live h
    · rw [freeArray, if_neg live]
  fun_induction freeAll w work with
  | case1 w => rfl
  | case2 w k rest ih => rw [ih, single]
  | case3 w k rest ih => rw [ih, single]
  | case4 w d rest dead ih => exact ih
  | case5 w d rest nodes found ih => rw [ih, tally_removeCollection found]
  | case6 w p rest _ _ _ ih => exact ih

/-- A free is counted for each array and each collection that goes. -/
theorem freesOf_freeAll (w : Host) (work : List Payload) (h : Handle) :
    (w.freeAll work).freesOf h = w.freesOf h +
      (if w.arrays.contains h = true ∧ OwnsArray w.collections work h then 1 else 0) +
      (if w.collections.contains h = true ∧ Owned w.collections work (.collection h)
        then 1 else 0) := by
  -- what is counted is what is missing now, and that is what is owned
  have hsum := tally_freeAll w work h
  simp only [tally, names, Table.contains, get?_arrays_freeAll, get?_collections_freeAll] at hsum
  by_cases ha : OwnsArray w.collections work h <;>
    by_cases hc : Owned w.collections work (.collection h) <;>
    cases hla : (w.arrays.get? h).isSome <;> cases hlc : (w.collections.get? h).isSome <;>
    simp_all [Table.contains]

/-- Nothing is counted for what is not owned. -/
theorem releasesOf_freeAll_of_not_owned {w : Host} {work : List Payload} {h : Handle}
    (ha : ¬ OwnsArray w.collections work h) (hc : ¬ Owned w.collections work (.collection h)) :
    (w.freeAll work).releasesOf h = w.releasesOf h := by
  have hfrees := freesOf_freeAll w work h
  rw [if_neg fun hh => ha hh.2, if_neg fun hh => hc hh.2] at hfrees
  have hdisowns := (Evolves.freeAll w work).disowns h
  unfold freesOf at hfrees
  cases hr : (w.freeAll work).releasesOf h
  simp_all

end Freeing

/-! ## Freeing a collection -/

open scoped Classical in
/-- **Freeing a collection releases exactly what it owns**, whatever the collections contain. Of the
    arrays, the collections and the places of nodes, those go that are reached from it through
    nodes that hold collections, and the others stay as they were. A free is counted for each array
    and each collection that goes, one time each, and nothing else is counted. Everything else about
    the host stays. -/
theorem freeCollection_spec (w : Host) (c : Handle) :
    (∀ d, (w.freeCollection c).collections.get? d =
      if Owned w.collections [.collection c] (.collection d) then none
      else w.collections.get? d) ∧
    (∀ h, (w.freeCollection c).arrays.get? h =
      if OwnsArray w.collections [.collection c] h then none else w.arrays.get? h) ∧
    (∀ id, (w.freeCollection c).places.get? id =
      if OwnsNode w.collections [.collection c] id then none else w.places.get? id) ∧
    (∀ h, (w.freeCollection c).freesOf h = w.freesOf h +
      (if w.arrays.contains h = true ∧ OwnsArray w.collections [.collection c] h then 1 else 0) +
      (if w.collections.contains h = true ∧ Owned w.collections [.collection c] (.collection h)
        then 1 else 0)) ∧
    (∀ h, ((w.freeCollection c).releasesOf h).disowns = (w.releasesOf h).disowns) ∧
    (w.freeCollection c).nextId = w.nextId ∧ (w.freeCollection c).links = w.links ∧
    (w.freeCollection c).currentLink = w.currentLink ∧
    (w.freeCollection c).abortRequested = w.abortRequested ∧
    (w.freeCollection c).denied = w.denied :=
  ⟨get?_collections_freeAll w _, get?_arrays_freeAll w _, get?_places_freeAll w _,
    freesOf_freeAll w _, (Evolves.freeAll w _).disowns, freeAll_frame w _⟩

end Marshal.Host
