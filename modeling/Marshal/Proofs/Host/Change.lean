import Marshal.Host.Collections
import Marshal.Host.Links

/-!
# `Proofs.Host.Change` — the host's operations, change by change

Every operation of the host is a sequence of changes to its tables, and a change gives out at most
one number. There are nine kinds of changes. A property that each of them keeps is kept by every
operation, the recursive ones and their roll-backs included, so what a run keeps is proved here once
and for all by looking at nine cases. What is proved of copies does not depend on how their depth is
bounded: a `CopyRule` goes from nested copies to the copy that they are nested in.

## Contents

* `get?_arrays_freeArray`, `get?_places_removeCollection`, … — what taking out does to the tables;
* `Use`, `Change`, `Changes`, `Evolves` — the changes, and sequences of them with the numbers that
  they give out;
* `CopyRule` — how a property of every copy is proved;
* `Evolves.freeAll`, `Evolves.copyCollection`, … — every operation is a sequence of changes.
-/

namespace Marshal.Host

open Marshal.Text

/-! ## Taking out

Taking out is the only way in which a table loses an entry. Each lemma holds whether or not there is
something to take out. -/

theorem get?_arrays_freeArray (w : Host) (h k : Handle) :
    (w.freeArray h).arrays.get? k = if k = h then none else w.arrays.get? k := by
  unfold freeArray
  split
  · exact Table.get?_erase ..
  · next dead =>
    split
    · next hk => rw [hk]; exact Table.get?_of_not_contains dead
    · rfl

/-- A free is counted for a live array only. -/
theorem releasesOf_freeArray (w : Host) (h k : Handle) :
    (w.freeArray h).releasesOf k =
      if k = h ∧ w.arrays.contains h = true then
        { w.releasesOf k with frees := (w.releasesOf k).frees + 1 }
      else w.releasesOf k := by
  unfold freeArray
  split
  · next live =>
    rw [releasesOf_recordFree]
    by_cases hk : k = h
    · subst hk
      simp [live, releasesOf]
    · simp [hk, releasesOf]
  · next dead => simp [dead]

@[simp] theorem places_freeArray (w : Host) (h : Handle) : (w.freeArray h).places = w.places := by
  unfold freeArray
  split <;> rfl

@[simp] theorem links_freeArray (w : Host) (h : Handle) : (w.freeArray h).links = w.links := by
  unfold freeArray
  split <;> rfl

@[simp] theorem nextId_freeArray (w : Host) (h : Handle) : (w.freeArray h).nextId = w.nextId := by
  unfold freeArray
  split <;> rfl

@[simp] theorem arrays_removeCollection (w : Host) (c : Handle) (nodes : List Node) :
    (w.removeCollection c nodes).arrays = w.arrays := rfl

/-- The places of the nodes go with their collection. -/
theorem get?_places_removeCollection (w : Host) (c : Handle) (nodes : List Node) (id : Handle) :
    (w.removeCollection c nodes).places.get? id =
      if id ∈ nodes.map (·.id) then none else w.places.get? id := by
  -- the places change from node to node, so the induction is for any places
  have erased : ∀ t : Table (Handle × Nat),
      (nodes.foldl (fun (places : Table (Handle × Nat)) (n : Node) => places.erase n.id) t).get? id =
        if id ∈ nodes.map (·.id) then none else t.get? id := by
    induction nodes with
    | nil => intro t; simp
    | cons n rest ih =>
      intro t
      rw [List.foldl_cons, ih, Table.get?_erase, List.map_cons]
      by_cases hid : id = n.id
      · simp [hid]
      · simp [hid]
  exact erased w.places

theorem releasesOf_removeCollection (w : Host) (c : Handle) (nodes : List Node) (k : Handle) :
    (w.removeCollection c nodes).releasesOf k =
      if k = c then { w.releasesOf k with frees := (w.releasesOf k).frees + 1 }
      else w.releasesOf k := by
  unfold removeCollection
  rw [releasesOf_recordFree]
  by_cases hk : k = c
  · subst hk
    simp [releasesOf]
  · simp [hk, releasesOf]

/-- A node goes to the end of a live collection and takes the next number. -/
theorem appendNode_of_live {w : Host} {c : Handle} {nodes : List Node}
    (live : w.collections.get? c = some nodes) (name : Option Bytes) (payload : Payload) :
    w.appendNode c name payload =
      { w with
        nextId := w.nextId + 1
        collections := w.collections.insert c (nodes ++ [⟨w.nextId, name, payload⟩])
        places := w.places.insert w.nextId (c, nodes.length) } := by
  simp only [appendNode, live, fresh]

/-! ## Changes -/

/-- What a number can be given to. -/
inductive Use
  | array
  | collection
  | node
  | link
  deriving DecidableEq, Repr

/-- One change of the host's tables, with the numbers that it gives out. Giving back a share is not
    among the changes: it is counted for any number at all, whereas a change counts a free only for
    what it takes out. -/
inductive Change : Host → List (Handle × Use) → Host → Prop
  | array (w : Host) (a : Dense) : Change w [(w.nextId, .array)] (w.addArray a).2
  | collection (w : Host) : Change w [(w.nextId, .collection)] w.newCollection.2
  | node {w : Host} {c : Handle} {nodes : List Node} (live : w.collections.get? c = some nodes)
      (name : Option Bytes) (payload : Payload) :
      Change w [(w.nextId, .node)] (w.appendNode c name payload)
  | link (w : Host) : Change w [(w.nextId, .link)] w.newLink.2
  | freeArray {w : Host} {h : Handle} (live : w.arrays.contains h = true) :
      Change w [] (w.freeArray h)
  | removeCollection {w : Host} {c : Handle} {nodes : List Node}
      (live : w.collections.get? c = some nodes) : Change w [] (w.removeCollection c nodes)
  | modifyArray (w : Host) (h : Handle) (f : Dense → Dense) :
      Change w [] { w with arrays := w.arrays.modify h f }
  | modifyLink (w : Host) (h : Handle) (f : Link → Link) :
      Change w [] { w with links := w.links.modify h f }
  | settings (w : Host) (link : Handle) (abort : Bool) (denied : List String) :
      Change w [] { w with currentLink := link, abortRequested := abort, denied := denied }

/-- A sequence of changes, with the numbers that they give out in order. -/
inductive Changes : Host → List (Handle × Use) → Host → Prop
  | refl (w : Host) : Changes w [] w
  | tail {w w' w'' : Host} {made more : List (Handle × Use)} :
      Changes w made w' → Change w' more w'' → Changes w (made ++ more) w''

theorem Changes.single {w w' : Host} {made : List (Handle × Use)} (h : Change w made w') :
    Changes w made w' := by
  simpa using Changes.tail (.refl w) h

theorem Changes.trans {w w' w'' : Host} {made more : List (Handle × Use)}
    (h : Changes w made w') (h' : Changes w' more w'') : Changes w (made ++ more) w'' := by
  induction h' with
  | refl => simpa using h
  | tail _ step ih =>
    rw [← List.append_assoc]
    exact ih.tail step

/-- One state of the host comes from another one by changes. -/
def Evolves (w w' : Host) : Prop := ∃ made, Changes w made w'

theorem Evolves.refl (w : Host) : Evolves w w := ⟨[], .refl w⟩

theorem Evolves.single {w w' : Host} {made : List (Handle × Use)} (h : Change w made w') :
    Evolves w w' := ⟨made, .single h⟩

theorem Evolves.trans {w w' w'' : Host} (h : Evolves w w') (h' : Evolves w' w'') :
    Evolves w w'' := by
  obtain ⟨made, hmade⟩ := h
  obtain ⟨more, hmore⟩ := h'
  exact ⟨made ++ more, hmade.trans hmore⟩

/-- No change gives back a share. -/
theorem Change.disowns {w w' : Host} {made : List (Handle × Use)} (step : Change w made w')
    (h : Handle) : (w'.releasesOf h).disowns = (w.releasesOf h).disowns := by
  cases step with
  | node live name payload =>
    rw [appendNode_of_live live]
    rfl
  | freeArray => rw [releasesOf_freeArray, apply_ite Releases.disowns, ite_self]
  | removeCollection => rw [releasesOf_removeCollection, apply_ite Releases.disowns, ite_self]
  | _ => rfl

theorem Evolves.disowns {w w' : Host} (hev : Evolves w w') (h : Handle) :
    (w'.releasesOf h).disowns = (w.releasesOf h).disowns := by
  obtain ⟨made, hmade⟩ := hev
  induction hmade with
  | refl => rfl
  | tail _ step ih => rw [step.disowns, ih]

/-! ## Arrays -/

theorem Evolves.addArray? (w : Host) (a : Option Dense) : Evolves w (w.addArray? a).2 := by
  cases a with
  | none => exact .refl w
  | some a => exact .single (.array w a)

theorem Evolves.newArrayByCode (w : Host) (family : Family) (code rank : Int)
    (dims : Option (List Int)) : Evolves w (w.newArrayByCode family code rank dims).2 := by
  unfold Host.newArrayByCode
  dsimp only
  split
  · exact .addArray? w _
  · exact .refl w

theorem Evolves.convertArrayByCode (w : Host) (source : Handle) (target method : Int)
    (tolerance : Number.Real64) :
    Evolves w (w.convertArrayByCode source target method tolerance).2 := by
  unfold Host.convertArrayByCode
  split
  · exact .addArray? w _
  · exact .refl w

theorem Evolves.freeArray (w : Host) (h : Handle) : Evolves w (w.freeArray h) := by
  by_cases live : w.arrays.contains h = true
  · exact .single (.freeArray live)
  · have : w.freeArray h = w := by rw [Host.freeArray, if_neg live]
    rw [this]
    exact .refl w

/-! ## Collections -/

theorem Evolves.appendNode (w : Host) (c : Handle) (name : Option Bytes) (payload : Payload) :
    Evolves w (w.appendNode c name payload) := by
  cases live : w.collections.get? c with
  | none =>
    have : w.appendNode c name payload = w := by simp only [Host.appendNode, live]
    rw [this]
    exact .refl w
  | some nodes => exact .single (.node live name payload)

theorem Evolves.acceptNode (w : Host) (c : Handle) (name : Option Bytes) (payload : Payload) :
    Evolves w (w.acceptNode c name payload) := by
  unfold Host.acceptNode
  split
  · exact .appendNode ..
  · split
    · exact .refl w
    · exact .appendNode ..
  · exact .appendNode ..

/-- Freeing takes out one array or collection after the other. -/
theorem Evolves.freeAll (w : Host) (work : List Payload) : Evolves w (w.freeAll work) := by
  fun_induction Host.freeAll w work with
  | case1 w => exact .refl w
  | case2 w h rest ih => exact (freeArray w h).trans ih
  | case3 w h rest ih => exact (freeArray w h).trans ih
  | case4 w c rest dead ih => exact ih
  | case5 w c rest nodes live ih => exact (single (.removeCollection live)).trans ih
  | case6 w p rest _ _ _ ih => exact ih

section Copies

variable {nested : Handle → Host → Option Handle × Host}

theorem Evolves.copyPayload (hnested : ∀ c w, Evolves w (nested c w).2) (w : Host) (p : Payload) :
    Evolves w (Host.copyPayload nested w p).2 := by
  cases p with
  | tensor h => exact .addArray? w _
  | numericArray h => exact .addArray? w _
  | collection c => exact hnested c w
  | _ => exact .refl w

/-- Copying nodes goes on from node to node and frees what it has got if one cannot be copied. -/
theorem Evolves.copyNodes (hnested : ∀ c w, Evolves w (nested c w).2) (copy : Handle) (w : Host)
    (nodes : List Node) : Evolves w (Host.copyNodes nested copy w nodes).2 := by
  fun_induction Host.copyNodes nested copy w nodes with
  | case1 w => exact .refl w
  | case2 w n rest w' hcopy =>
    have hw' : Evolves w w' := by simpa only [hcopy] using copyPayload hnested w n.payload
    exact hw'.trans (.freeAll w' _)
  | case3 w n rest payload w' hcopy ih =>
    have hw' : Evolves w w' := by simpa only [hcopy] using copyPayload hnested w n.payload
    exact (hw'.trans (.appendNode ..)).trans ih

/-- **What every copy is made of.** A property of a source, a host and what comes of copying the source
there, that holds if the copy is given up at once, and that goes from nested copies to the copy that they
are nested in. -/
structure CopyRule (Q : Handle → Host → Option Handle × Host → Prop) : Prop where
  none : ∀ c w, Q c w (none, w)
  nodes : ∀ {nested : Handle → Host → Option Handle × Host}, (∀ c w, Q c w (nested c w)) →
    ∀ {c : Handle} {w : Host} {nodes : List Node}, w.collections.get? c = some nodes →
      Q c w (Host.copyNodes nested w.newCollection.1 w.newCollection.2 nodes)

namespace CopyRule

variable {Q : Handle → Host → Option Handle × Host → Prop}

theorem copyOnce (rule : CopyRule Q) (hnested : ∀ c w, Q c w (nested c w)) (c : Handle) (w : Host) :
    Q c w (Host.copyOnce nested c w) := by
  unfold Host.copyOnce
  split
  · exact rule.none c w
  · next found => exact rule.nodes hnested found

theorem copyNested (rule : CopyRule Q) (depth : Nat) (c : Handle) (w : Host) :
    Q c w (Host.copyNested depth c w) := by
  induction depth generalizing c w with
  | zero => exact rule.none c w
  | succ depth ih => exact rule.copyOnce ih c w

theorem copyFrom (rule : CopyRule Q) (start : Handle) (depth : Nat) (c : Handle) (w : Host) :
    Q c w (Host.copyFrom start depth c w) := by
  induction depth generalizing c w with
  | zero =>
    rcases Nat.lt_or_ge c start with old | late
    · rw [copyFrom_zero old]
      exact rule.none c w
    · rw [copyFrom_of_le late]
      exact rule.copyNested ..
  | succ depth ih =>
    rcases Nat.lt_or_ge c start with old | late
    · rw [copyFrom_succ old]
      exact rule.copyOnce ih c w
    · rw [copyFrom_of_le late]
      exact rule.copyNested ..

/-- A rule for copies is a rule for the copy that the host makes, whatever its bounds are. -/
theorem copyCollection (rule : CopyRule Q) (w : Host) (c : Handle) : Q c w (w.copyCollection c) :=
  rule.copyFrom ..

end CopyRule

theorem Evolves.copyRule : CopyRule fun _ w r => Evolves w r.2 where
  none _ w := .refl w
  nodes hnested _ w _ _ := (single (.collection w)).trans (.copyNodes hnested ..)

theorem Evolves.copyCollection (w : Host) (c : Handle) : Evolves w (w.copyCollection c).2 :=
  copyRule.copyCollection w c

end Copies

/-! ## Links -/

/-- Putting something in place of a live link is a change of that link. -/
theorem Evolves.insertLink {w : Host} {h : Handle} {l : Link} (live : w.links.get? h = some l)
    (l' : Link) : Evolves w { w with links := w.links.insert h l' } := by
  have step := Change.modifyLink w h fun _ => l'
  simp only [Table.modify, live] at step
  exact .single step

theorem Evolves.enqueuePacket (w : Host) (h : Handle) (packet : Bytes) :
    Evolves w (w.enqueuePacket h packet).2 := by
  unfold Host.enqueuePacket
  split
  · next l live =>
    split
    · exact .refl w
    · exact .insertLink live _
  · exact .refl w

theorem Evolves.evaluateLink (w : Host) (h : Handle) : Evolves w (w.evaluateLink h).2 := by
  unfold Host.evaluateLink
  split
  · next l live =>
    split
    · exact .refl w
    · exact .insertLink live _
  · exact .refl w

end Marshal.Host
