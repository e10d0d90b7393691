import Marshal.Proofs.Host.Copy

/-!
# `Proofs.Host.Unbounded` — no copy is cut off

`Finishes` says what copying comes to without a bound on its depth, if it comes to an end. A collection
is looked up when the copy gets to it, and copying a collection that contains itself may go on for ever.
The copy that the host makes has bounds; for a collection that does not contain itself they are not
reached, so what the host makes is what copying without a bound comes to, and nothing else is.

There are two bounds for two reasons. What was there before the copy stays as it is while the copy is
made, so it is nested no deeper than there are collections. But contents can hold a handle that the copy
itself gives out. What that handle names then is a collection that ascends: it was made before the
collections that its nodes hold, and a node was appended only when what it holds was finished. So the way
down from there leads through greater and greater numbers, all of which have been given out already.

## Contents

* `CopyTask`, `Finishes`, `Finishes.unique` — copying without a bound;
* `Ascending`, `Ascends` — what copies contain;
* `copyNested_finishes`, `Underway`, `copyFrom_finishes` — the two bounds are enough;
* `copyCollection_finishes` — what the host makes is what copying comes to.
-/

namespace Marshal.Host

open Marshal.Text

/-! ## Copying without a bound -/

/-- What there is to copy: contents, or the nodes that have still to be copied into `copy`. -/
inductive CopyTask
  | payload (p : Payload)
  | nodes (copy : Handle) (todo : List Node)

/-- **What copying comes to**, however deep it has to go. -/
inductive Finishes : CopyTask → Host → Option Payload × Host → Prop
  | plain {p : Payload} {w : Host} (taken : p.stored = none) : Finishes (.payload p) w (some p, w)
  | tensor {h : Handle} {w : Host} :
      Finishes (.payload (.tensor h)) w ((w.copyArray h).1.map .tensor, (w.copyArray h).2)
  | numericArray {h : Handle} {w : Host} :
      Finishes (.payload (.numericArray h)) w
        ((w.copyArray h).1.map .numericArray, (w.copyArray h).2)
  | dead {c : Handle} {w : Host} (dead : w.collections.get? c = none) :
      Finishes (.payload (.collection c)) w (none, w)
  | live {c : Handle} {w : Host} {nodes : List Node} {r : Option Payload × Host}
      (found : w.collections.get? c = some nodes)
      (filled : Finishes (.nodes w.newCollection.1 nodes) w.newCollection.2 r) :
      Finishes (.payload (.collection c)) w r
  | done {copy : Handle} {w : Host} : Finishes (.nodes copy []) w (some (.collection copy), w)
  | next {copy : Handle} {w w₁ : Host} {n : Node} {rest : List Node} {p : Payload}
      {r : Option Payload × Host} (copied : Finishes (.payload n.payload) w (some p, w₁))
      (others : Finishes (.nodes copy rest) (w₁.appendNode copy n.name p) r) :
      Finishes (.nodes copy (n :: rest)) w r
  | givenUp {copy : Handle} {w w₁ : Host} {n : Node} {rest : List Node}
      (failed : Finishes (.payload n.payload) w (none, w₁)) :
      Finishes (.nodes copy (n :: rest)) w (none, w₁.freeCollection copy)

/-- Copying comes to one end only. -/
theorem Finishes.unique {task : CopyTask} {w : Host} {r r' : Option Payload × Host}
    (h : Finishes task w r) (h' : Finishes task w r') : r = r' := by
  induction h generalizing r' with
  | plain taken =>
    cases h' with
    | plain => rfl
    | _ => cases taken
  | tensor =>
    cases h' with
    | plain taken => cases taken
    | tensor => rfl
  | numericArray =>
    cases h' with
    | plain taken => cases taken
    | numericArray => rfl
  | dead dead =>
    cases h' with
    | plain taken => cases taken
    | dead => rfl
    | live found => cases dead.symm.trans found
  | live found _ ih =>
    cases h' with
    | plain taken => cases taken
    | dead dead => cases dead.symm.trans found
    | live found' filled =>
      obtain rfl := Option.some.inj (found.symm.trans found')
      exact ih filled
  | done =>
    cases h' with
    | done => rfl
  | next _ _ ihCopied ihOthers =>
    cases h' with
    | next copied others =>
      obtain ⟨hp, rfl⟩ := Prod.mk.inj (ihCopied copied)
      obtain rfl := Option.some.inj hp
      exact ihOthers others
    | givenUp failed => cases (Prod.mk.inj (ihCopied failed)).1
  | givenUp _ ih =>
    cases h' with
    | next copied => cases (Prod.mk.inj (ih copied)).1
    | givenUp failed =>
      obtain ⟨-, rfl⟩ := Prod.mk.inj (ih failed)
      rfl

/-- Copying a collection comes to a given copy, or to none, and leaves a given host. -/
def CopyFinishes (c : Handle) (w : Host) (r : Option Handle × Host) : Prop :=
  Finishes (.payload (.collection c)) w (r.1.map .collection, r.2)

theorem CopyFinishes.unique {c : Handle} {w : Host} {r r' : Option Handle × Host}
    (h : CopyFinishes c w r) (h' : CopyFinishes c w r') : r = r' := by
  obtain ⟨hmade, hhost⟩ := Prod.mk.inj (Finishes.unique h h')
  have inj : Function.Injective Payload.collection := fun _ _ => Payload.collection.inj
  exact Prod.ext (Option.map_injective inj hmade) hhost

section Finishing

variable {nested : Handle → Host → Option Handle × Host} {w : Host}

/-- Contents are copied to the end if a collection is. -/
theorem copyPayload_finishes {p : Payload}
    (hnested : ∀ c, p = .collection c → CopyFinishes c w (nested c w)) :
    Finishes (.payload p) w (copyPayload nested w p) := by
  cases p with
  | tensor h => exact .tensor
  | numericArray h => exact .numericArray
  | collection c => exact hnested c rfl
  | _ => exact .plain rfl

/-- **Nodes are copied to the end** if the contents of each are, in any state that copying the ones before
it can leave. -/
theorem copyNodes_finishes {P : Host → Prop} {copy : Handle} {nodes : List Node}
    (hnested : ∀ n ∈ nodes, ∀ w, P w → Finishes (.payload n.payload) w (copyPayload nested w n.payload))
    (keeps : ∀ n ∈ nodes, ∀ w p w₁, P w → copyPayload nested w n.payload = (some p, w₁) →
      P (w₁.appendNode copy n.name p)) (start : P w) :
    Finishes (.nodes copy nodes) w
      ((copyNodes nested copy w nodes).1.map .collection, (copyNodes nested copy w nodes).2) := by
  induction nodes generalizing w with
  | nil => exact .done
  | cons n rest ih =>
    have hfirst := hnested n List.mem_cons_self w start
    rw [copyNodes]
    rcases hp : copyPayload nested w n.payload with ⟨_ | p, w₁⟩
    · rw [hp] at hfirst
      exact .givenUp hfirst
    · rw [hp] at hfirst
      refine .next hfirst (ih ?_ ?_ ?_)
      · exact fun m hm => hnested m (List.mem_cons_of_mem _ hm)
      · exact fun m hm => keeps m (List.mem_cons_of_mem _ hm)
      · exact keeps n List.mem_cons_self w p w₁ start hp

/-- What is not live has no copy, however deep copying may go. -/
theorem copyNested_of_dead {c : Handle} (dead : w.collections.get? c = none) (depth : Nat) :
    copyNested depth c w = (none, w) := by
  cases depth with
  | zero => rfl
  | succ depth => rw [copyNested, copyOnce, dead]

end Finishing

/-! ## What was there before -/

/-- **A collection that is nested no deeper than the bound is copied to the end**, if it refers to no
collection that has not been given out: as long as only later numbers change, all of it stays what it
is. -/
theorem copyNested_finishes {w₀ : Host} {depth : Nat} {c : Handle}
    (shallow : Shallow w₀.collections depth c)
    (named : ∀ d, Owned w₀.collections [.collection c] (.collection d) → d < w₀.nextId) {w : Host}
    (confined : Confined w₀.nextId w₀ w) : CopyFinishes c w (copyNested depth c w) := by
  induction depth generalizing c w with
  | zero => exact .dead ((confined.collections c (named c owned_self)).trans shallow)
  | succ depth ih =>
    have same := confined.collections c (named c owned_self)
    rw [copyNested, copyOnce]
    split
    · next dead => exact .dead dead
    · next nodes live =>
      have found := same.symm.trans live
      refine .live live (copyNodes_finishes (P := Confined w₀.nextId w₀) ?_ ?_
        confined.newCollection)
      · intro n hn w hw
        refine copyPayload_finishes fun d hd => ?_
        refine ih (shallow nodes n d found hn hd) (fun e he => ?_) hw
        exact named e (owned_of_node found hn (hd ▸ he))
      · intro n hn w p w₁ hw hp
        obtain ⟨hw₁, hnew⟩ :=
          hw.copyPayload (fun c w h => (Framed.copyRule.copyNested depth c w).confined h) n.payload
        rw [hp] at hw₁ hnew
        exact hw₁.appendNode confined.next n.name (hnew p rfl)

/-! ## What the copy has made -/

/-- Collections with numbers from `b` on contain only collections with greater numbers, which have been
given out. -/
def Ascending (b : Handle) (w : Host) : Prop :=
  ∀ c nodes n d, b ≤ c → w.collections.get? c = some nodes → n ∈ nodes →
    n.payload = .collection d → c < d ∧ d < w.nextId

/-- There is no collection with a number that has not been given out. -/
theorem Bounded.ascending {w : Host} (hw : Bounded w) : Ascending w.nextId w :=
  fun _ _ _ _ hc found _ _ => absurd (hw.collection_lt found) (Nat.not_lt.mpr hc)

namespace Ascending

variable {b : Handle} {w w' : Host}

/-- Numbers go up, and collections go or start without nodes. -/
theorem of_fewer (h : Ascending b w) (hnext : w.nextId ≤ w'.nextId)
    (fewer : ∀ c nodes, w'.collections.get? c = some nodes →
      w.collections.get? c = some nodes ∨ nodes = []) : Ascending b w' := by
  intro c nodes n d hc found hn hd
  rcases fewer c nodes found with found | rfl
  · obtain ⟨hlt, hlt'⟩ := h c nodes n d hc found hn hd
    exact ⟨hlt, Nat.lt_of_lt_of_le hlt' hnext⟩
  · cases hn

theorem addArray? (h : Ascending b w) (a : Option Dense) : Ascending b (w.addArray? a).2 := by
  refine h.of_fewer (Evolves.addArray? w a).nextId_le fun c nodes found => ?_
  cases a <;> exact .inl found

theorem newCollection (h : Ascending b w) : Ascending b w.newCollection.2 := by
  refine h.of_fewer (Nat.le_succ _) fun c nodes found => ?_
  rcases (Table.get?_insert ..).symm.trans found |> ite_eq_iff.mp with ⟨-, hnil⟩ | ⟨-, found⟩
  · exact .inr (Option.some.inj hnil).symm
  · exact .inl found

theorem freeAll (h : Ascending b w) (work : List Payload) : Ascending b (w.freeAll work) := by
  refine h.of_fewer (Evolves.freeAll w work).nextId_le fun c nodes found => ?_
  rw [get?_collections_freeAll] at found
  split at found
  · cases found
  · exact .inl found

/-- A node is appended to a collection with a smaller number than the one that it holds. -/
theorem appendNode (h : Ascending b w) (copy : Handle) (name : Option Bytes) {p : Payload}
    (hp : ∀ d, p = .collection d → copy < d ∧ d < w.nextId) :
    Ascending b (w.appendNode copy name p) := by
  cases live : w.collections.get? copy with
  | none =>
    have same : w.appendNode copy name p = w := by simp only [Host.appendNode, live]
    rw [same]
    exact h
  | some nodes =>
    rw [appendNode_of_live live]
    intro c nodes' n d hc found hn hd
    rw [Table.get?_insert] at found
    have later : ∀ {c}, c < d ∧ d < w.nextId → c < d ∧ d < w.nextId + 1 :=
      fun hlt => ⟨hlt.1, Nat.lt_succ_of_lt hlt.2⟩
    split at found
    · next hcopy =>
      subst hcopy
      obtain rfl := Option.some.inj found
      rcases List.mem_append.mp hn with hn | hn
      · exact later (h c nodes n d hc live hn hd)
      · obtain rfl := List.mem_singleton.mp hn
        exact later (hp d hd)
    · exact later (h c nodes' n d hc found hn hd)

/-- The way down from a collection that ascends leads through numbers that have been given out. -/
theorem owned (h : Ascending b w) {c : Handle} (hc : b ≤ c) (hlt : c < w.nextId) {q : Payload}
    (hown : Owned w.collections [.collection c] q) :
    ∀ d, q = .collection d → b ≤ d ∧ d < w.nextId := by
  induction hown with
  | here mem =>
    intro d hd
    obtain rfl := Payload.collection.inj (hd.symm.trans (List.mem_singleton.mp mem))
    exact ⟨hc, hlt⟩
  | @inside e nodes n _ found hn ih =>
    intro d hd
    obtain ⟨he, -⟩ := ih e rfl
    obtain ⟨hed, hd⟩ := h e nodes n d he found hn hd
    exact ⟨Nat.le_trans he (Nat.le_of_lt hed), hd⟩

/-- **A collection that ascends is nested no deeper** than there are numbers above its own. -/
theorem shallow (h : Ascending b w) (bounded : Bounded w) {depth : Nat} {c : Handle} (hc : b ≤ c)
    (enough : w.nextId ≤ c + depth) : Shallow w.collections depth c := by
  induction depth generalizing c with
  | zero =>
    exact Table.get?_of_not_contains fun live =>
      absurd (bounded .collection c live) (Nat.not_lt.mpr enough)
  | succ depth ih =>
    intro nodes n d found hn hd
    obtain ⟨hlt, -⟩ := h c nodes n d hc found hn hd
    refine ih (Nat.le_trans hc (Nat.le_of_lt hlt)) (Nat.le_trans enough ?_)
    calc c + (depth + 1) = c + 1 + depth := Nat.add_right_comm c depth 1
      _ ≤ d + depth := Nat.add_le_add_right hlt depth

end Ascending

/-- **What a copy is made of ascends**, and it has a number of its own that has been given out for it. -/
structure Ascends (w : Host) (r : Option Handle × Host) : Prop extends Framed w r where
  ascending : ∀ {b}, Ascending b w → Ascending b r.2
  made : ∀ k, r.1 = some k → w.nextId ≤ k ∧ k < r.2.nextId

section Ascent

variable {b : Handle} {w : Host} {nested : Handle → Host → Option Handle × Host}

theorem Ascending.copyPayload (hnested : ∀ c w, Ascends w (nested c w)) (h : Ascending b w)
    (p : Payload) : Ascending b (Host.copyPayload nested w p).2 ∧
      ∀ d, (Host.copyPayload nested w p).1 = some (.collection d) →
        w.nextId ≤ d ∧ d < (Host.copyPayload nested w p).2.nextId := by
  cases p with
  | tensor h' =>
    refine ⟨h.addArray? _, fun d hd => ?_⟩
    obtain ⟨k, -, hk⟩ := Option.map_eq_some_iff.mp hd
    cases hk
  | numericArray h' =>
    refine ⟨h.addArray? _, fun d hd => ?_⟩
    obtain ⟨k, -, hk⟩ := Option.map_eq_some_iff.mp hd
    cases hk
  | collection c =>
    refine ⟨(hnested c w).ascending h, fun d hd => ?_⟩
    obtain ⟨k, hk, hd⟩ := Option.map_eq_some_iff.mp hd
    obtain rfl := Payload.collection.inj hd
    exact (hnested c w).made k hk
  | _ => exact ⟨h, fun d hd => by cases Option.some.inj hd⟩

theorem Ascending.copyNodes (hnested : ∀ c w, Ascends w (nested c w)) (h : Ascending b w)
    {copy : Handle} (hcopy : copy < w.nextId) (nodes : List Node) :
    Ascending b (Host.copyNodes nested copy w nodes).2 := by
  induction nodes generalizing w with
  | nil => exact h
  | cons n rest ih =>
    obtain ⟨h₁, hmade⟩ := h.copyPayload hnested n.payload
    rw [Host.copyNodes]
    rcases hp : Host.copyPayload nested w n.payload with ⟨_ | p, w₁⟩
    · rw [hp] at h₁
      exact h₁.freeAll _
    · rw [hp] at h₁ hmade
      have hev := copyPayload_evolves (fun c w => (hnested c w).toFramed) hp
      refine ih (h₁.appendNode copy n.name ?_) ?_
      · rintro d rfl
        obtain ⟨hle, hlt⟩ := hmade d rfl
        exact ⟨Nat.lt_of_lt_of_le hcopy hle, hlt⟩
      · exact Nat.lt_of_lt_of_le hcopy (hev.trans (.appendNode ..)).nextId_le

end Ascent

theorem Ascends.copyRule : CopyRule fun _ => Ascends where
  none c w := ⟨Framed.copyRule.none c w, id, fun k hk => by cases hk⟩
  nodes {nested} hnested c w nodes found := by
    have framed := fun c w => (hnested c w).toFramed
    refine ⟨Framed.copyRule.nodes framed found, fun h => ?_, fun k hk => ?_⟩
    · exact h.newCollection.copyNodes hnested (Nat.lt_succ_self w.nextId) nodes
    · obtain rfl : k = w.nextId := copyNodes_result hk
      have hev := Evolves.copyNodes (fun c w => (framed c w).evolves) w.nextId w.newCollection.2 nodes
      exact ⟨Nat.le_refl _, Nat.lt_of_lt_of_le (Nat.lt_succ_self w.nextId) hev.nextId_le⟩

/-- A collection that ascends is copied to the end. Everything that it leads to has been given out, and
copying it changes later numbers only. -/
theorem Ascending.finishes {b : Handle} {w : Host} (h : Ascending b w) (bounded : Bounded w) {c : Handle}
    (hc : b ≤ c) : CopyFinishes c w (copyNested w.nextId c w) := by
  cases found : w.collections.get? c with
  | none =>
    rw [copyNested_of_dead found]
    exact .dead found
  | some nodes =>
    refine copyNested_finishes (h.shallow bounded hc (Nat.le_add_left ..)) (fun d hd => ?_)
      (.refl (Nat.le_refl _) bounded.closed)
    exact (h.owned hc (bounded.collection_lt found) hd d rfl).2

/-! ## Both together -/

/-- **While a copy is made** that began in `w₀`: what there was is as it was, and what has been made
ascends. -/
structure Underway (w₀ w : Host) : Prop where
  bounded : Bounded w
  confined : Confined w₀.nextId w₀ w
  ascending : Ascending w₀.nextId w

namespace Underway

variable {w₀ w w₁ : Host}

theorem start (bounded : Bounded w) : Underway w w :=
  ⟨bounded, .refl (Nat.le_refl _) bounded.closed, bounded.ascending⟩

theorem newCollection (h : Underway w₀ w) : Underway w₀ w.newCollection.2 :=
  ⟨(Evolves.single (.collection w)).bounded h.bounded, h.confined.newCollection,
    h.ascending.newCollection⟩

/-- **One more node** is copied and appended to a collection that has been made for the copy. -/
theorem next {nested : Handle → Host → Option Handle × Host} (ascends : ∀ c w, Ascends w (nested c w))
    (h : Underway w₀ w) {copy : Handle} (new : w₀.nextId ≤ copy) (made : copy < w.nextId) {n : Node}
    {p : Payload} (hp : copyPayload nested w n.payload = (some p, w₁)) :
    Underway w₀ (w₁.appendNode copy n.name p) := by
  have hev := copyPayload_evolves (fun c w => (ascends c w).toFramed) hp
  obtain ⟨hconfined, hnew⟩ :=
    h.confined.copyPayload (fun c w h => (ascends c w).confined h) n.payload
  obtain ⟨hascending, hmade⟩ := h.ascending.copyPayload ascends n.payload
  rw [hp] at hconfined hnew hascending hmade
  constructor
  case bounded => exact (hev.trans (.appendNode ..)).bounded h.bounded
  case confined => exact hconfined.appendNode new n.name (hnew p rfl)
  case ascending =>
    refine hascending.appendNode copy n.name ?_
    rintro d rfl
    obtain ⟨hle, hlt⟩ := hmade d rfl
    exact ⟨Nat.lt_of_lt_of_le made hle, hlt⟩

end Underway

/-- **The bounds are enough.** Copying goes through collections that were there at the start, which have
not changed, until it comes to one that it has made itself. -/
theorem copyFrom_finishes {w₀ w : Host} {depth : Nat} {c : Handle}
    (shallow : Shallow w₀.collections depth c) (h : Underway w₀ w) :
    CopyFinishes c w (copyFrom w₀.nextId depth c w) := by
  induction depth generalizing c w with
  | zero =>
    rcases Nat.lt_or_ge c w₀.nextId with old | late
    · rw [copyFrom_zero old]
      exact .dead ((h.confined.collections c old).trans shallow)
    · rw [copyFrom_of_le late]
      exact h.ascending.finishes h.bounded late
  | succ depth ih =>
    rcases Nat.lt_or_ge c w₀.nextId with old | late
    · have same := h.confined.collections c old
      have ascends := Ascends.copyRule.copyFrom w₀.nextId depth
      rw [copyFrom_succ old, copyOnce]
      split
      · next dead => exact .dead dead
      · next nodes live =>
        refine .live live (copyNodes_finishes (P := fun w' => Underway w₀ w' ∧ w.nextId < w'.nextId)
          ?_ ?_ ⟨h.newCollection, Nat.lt_succ_self _⟩)
        · rintro n hn w' ⟨h', -⟩
          refine copyPayload_finishes fun d hd => ?_
          exact ih (shallow nodes n d (same.symm.trans live) hn hd) h'
        · rintro n hn w' p w₁ ⟨h', later⟩ hp
          have hev := copyPayload_evolves (fun c w => (ascends c w).toFramed) hp
          refine ⟨h'.next ascends h.confined.next later hp, ?_⟩
          exact Nat.lt_of_lt_of_le later (hev.trans (.appendNode ..)).nextId_le
    · rw [copyFrom_of_le late]
      exact h.ascending.finishes h.bounded late

/-- **No copy is cut off.** In any state that the host can get to, with any handles in its collections,
copying a collection that contains no way back to itself comes to an end, and to what the host makes of
it, whether that is a copy or none. -/
theorem copyCollection_finishes {made : List (Handle × Use)} {w : Host} {c : Handle}
    (past : History made w) (acyclic : Acyclic w.collections c) (r : Option Handle × Host) :
    CopyFinishes c w r ↔ r = w.copyCollection c := by
  have bounded := past.sound.is_bounded
  have finishes : CopyFinishes c w (w.copyCollection c) :=
    copyFrom_finishes (acyclic.shallow bounded.size_le) (.start bounded)
  constructor
  · exact fun h => h.unique finishes
  · rintro rfl
    exact finishes

/-- A collection that holds another one and the handle that the copy of that one is going to have. -/
def ahead : Host :=
  run {} [.newCollection, .newCollection, .addNode 2 none (.integer 7),
    .addNode 1 none (.collection 2), .addNode 1 none (.collection 7)]

example : (ahead.copyCollection 1).1 = some 6 ∧
    ((ahead.copyCollection 1).2.collections.get? 6).map (·.map (·.payload)) =
      some [.collection 7, .collection 10] := by decide

end Marshal.Host
