import Marshal.Proofs.Collection.Insertions
import Marshal.Proofs.Host.Frame

/-!
# `Proofs.Collection.Receipts` — what the success of an insertion is worth

The library looks at the name, at the text and at whether the target is null. Whether there is a
collection at all is for the host to know, and the host has no way to say that it has added nothing.
So an insertion that fails has added no node, and what it consumed has been released. One that
succeeds has added its node if the target is live and is not put into itself. Otherwise nothing has
happened, what was to be inserted has no owner, and the library does not notice.

## Contents

* `Session.Gains`, `Session.Running.gains` — one node more;
* `Insertion.CanTake` — whether there is a collection for what is inserted;
* `Insertion.Received`, `Insertion.Returned` — a node that has been added, a container that has been
  released;
* `insertion_receipt` — what success and failure tell;
* `insertion_unnoticed` — success does not tell that a node has been added.
-/

namespace Marshal

open Marshal.Host Marshal.Text

/-- What has been consumed and cannot be inserted is live no more. -/
theorem Item.names_discarded {item : Item} {p : Payload} (mem : p ∈ item.consumed) {u : Use}
    {h : Handle} (stored : p.stored = some (u, h)) (hnull : h ≠ Handle.null) (w : Host) :
    (u = .array ∨ u = .collection) ∧ (item.discarded w).names u h = false := by
  cases item with
  | container kind k =>
    obtain rfl := List.mem_singleton.mp mem
    have hk : k = h := by
      cases kind <;> exact (Prod.mk.inj (Option.some.inj stored)).2
    subst hk
    have hfreed : (Item.container kind k).discarded w = w.freeAll [.ofHandle kind.kind k] :=
      if_neg hnull
    rw [hfreed]
    cases kind with
    | tensor =>
      obtain rfl := (Prod.mk.inj (Option.some.inj stored)).1
      refine ⟨.inl rfl, ?_⟩
      rw [names, Table.contains, get?_arrays_freeAll, if_pos (.inl (.here mem))]
      rfl
    | numericArray =>
      obtain rfl := (Prod.mk.inj (Option.some.inj stored)).1
      refine ⟨.inl rfl, ?_⟩
      rw [names, Table.contains, get?_arrays_freeAll, if_pos (.inr (.here mem))]
      rfl
    | collection =>
      obtain rfl := (Prod.mk.inj (Option.some.inj stored)).1
      refine ⟨.inr rfl, ?_⟩
      rw [names, Table.contains, get?_collections_freeAll, if_pos (.here mem)]
      rfl
  | _ => cases mem

/-! ## One node more -/

/-- **A collection has one node more**: the last one, with a given report. The others have the nodes that
they had. -/
structure Session.Gains (s t : Session) (list id : Handle)
    (report : Option String × Kind × Except Fault Value) : Prop where
  length : t.collectionLength list = s.collectionLength list + 1
  nodes : t.nodes list = s.nodes list ++ [id]
  back : t.back list = id
  reported : t.reported id = report
  others : ∀ c, c ≠ list → t.nodes c = s.nodes c

/-- The host's nodes of a collection after contents have been accepted. -/
theorem Host.nodesOf_acceptNode {w : Host} (label : Option Bytes) {list : Handle} {payload : Payload}
    (live : w.collections.contains list = true) (apart : payload ≠ .collection list) (c : Handle) :
    (w.acceptNode list label payload).nodesOf c =
      if list = c then w.nodesOf c ++ [⟨w.nextId, label, payload.kept⟩] else w.nodesOf c := by
  obtain ⟨nodes, hnodes⟩ := Table.contains_iff.mp live
  unfold Host.nodesOf
  rw [w.acceptNode_eq label apart, get?_collections_appendNode]
  by_cases hc : list = c
  · rw [if_pos hc, if_pos hc, ← hc, hnodes]
    rfl
  · rw [if_neg hc, if_neg hc]

/-- **What the host takes is one node more**, which reports the contents. -/
theorem Session.Running.gains {s : Session} (running : s.Running) {list : Handle} {payload : Payload}
    (live : s.host.collections.contains list = true) (apart : payload ≠ .collection list)
    (label : Option Bytes) :
    s.Gains { s with host := s.host.acceptNode list label payload } list s.host.nextId
      (label.map lossyString, payload.kind, .ok payload.value) := by
  have running' := running.evolves (.acceptNode s.host list label payload)
  obtain ⟨made, past⟩ := running'.hosted
  have hnodes := Host.nodesOf_acceptNode label live apart
  have hold := running.listed list
  have hnew := running'.listed list
  have htarget := (hnodes list).trans (if_pos rfl)
  constructor
  case length =>
    rw [hnew.length, hold.length, htarget]
    simp
  case nodes =>
    rw [hnew.nodes, hold.nodes, htarget, List.map_append]
    rfl
  case back =>
    rw [hnew.back, htarget, List.map_append, List.map_singleton, List.getLast?_concat]
    rfl
  case reported =>
    have mem := htarget ▸ List.mem_append_right _ (List.mem_singleton.mpr rfl)
    obtain ⟨hkind, hvalue⟩ := payload.kept_reports
    refine (Session.reported_of_mem running'.attached past.sound mem).trans ?_
    rw [Node.reported, hkind, hvalue]
  case others =>
    intro c hc
    rw [(running'.listed c).nodes, (running.listed c).nodes]
    exact congrArg _ ((hnodes c).trans (if_neg (Ne.symm hc)))

namespace Insertion

/-- Whether there is a collection that can take what is inserted. -/
def CanTake (s : Session) (i : Insertion) : Prop :=
  s.host.collections.contains i.list.handle = true ∧ i.item.stored ≠ .collection i.list.handle

/-- **One node has been added** to the end of the target, and reports what was given. -/
structure Received (i : Insertion) (s t : Session) : Prop where
  length : t.collectionLength i.list.handle = s.collectionLength i.list.handle + 1
  last : t.reported (t.back i.list.handle) = i.reported
  nodes : ∃ id, t.nodes i.list.handle = s.nodes i.list.handle ++ [id]
  others : ∀ c, c ≠ i.list.handle → t.nodes c = s.nodes c

/-- **No node has been added**, and what was live of a container that was to be inserted has been
freed once. -/
structure Returned (i : Insertion) (s t : Session) : Prop where
  nodes : ∀ c, t.host.collections.contains c = true → t.nodes c = s.nodes c
  released : ∀ p ∈ i.item.consumed, ∀ u h, p.stored = some (u, h) → s.host.names u h = true →
    t.host.names u h = false ∧ s.host.freesOf h = 0 ∧ t.host.freesOf h = 1

variable {s : Session} {i : Insertion}

/-- The host does nothing if there is no collection that can take the contents. -/
theorem acceptNode_of_not_canTake (none : ¬ i.CanTake s) (label : Option Bytes) :
    s.host.acceptNode i.list.handle label i.item.stored = s.host := by
  by_cases hself : i.item.stored = .collection i.list.handle
  · rw [hself]
    exact if_pos rfl
  · have dead : s.host.collections.get? i.list.handle = Option.none :=
      Table.get?_of_not_contains fun live => none ⟨live, hself⟩
    rw [s.host.acceptNode_eq label hself]
    simp only [appendNode, dead]

/-- **What the host has accepted has been received.** -/
theorem received (running : s.Running) (accepted : i.refused = false) (canTake : i.CanTake s) :
    i.Received s { s with
      host := s.host.acceptNode i.list.handle (i.name.map bytesOf) i.item.stored } := by
  obtain ⟨live, apart⟩ := canTake
  have gains := running.gains live apart (i.name.map bytesOf)
  refine ⟨gains.length, ?_, ⟨_, gains.nodes⟩, gains.others⟩
  rw [gains.back, gains.reported, i.reported_stored accepted]

/-- **What has been refused has been returned.** -/
theorem returned (running : s.Running) :
    i.Returned s { s with host := i.item.discarded s.host } := by
  have hev := i.item.discarded_evolves s.host
  have running' := running.evolves hev
  constructor
  case nodes =>
    intro c live
    obtain ⟨nodes, hnodes⟩ := Table.contains_iff.mp live
    have hsame : (i.item.discarded s.host).nodesOf c = s.host.nodesOf c := by
      rw [nodesOf, nodesOf, hnodes, i.item.get?_discarded s.host hnodes]
    rw [(running'.listed c).nodes, (running.listed c).nodes]
    exact congrArg _ hsame
  case released =>
    intro p mem u h stored live
    obtain ⟨made, past⟩ := running.hosted
    obtain ⟨more, changes⟩ := hev
    have hnull : h ≠ Handle.null := Nat.pos_iff_ne_zero.mp (past.sound.lt_next live).1
    obtain ⟨owned, gone⟩ := Item.names_discarded mem stored hnull s.host
    have hmade := past.sound.named u h live
    refine ⟨gone, ?_, ?_⟩
    · rcases past.sound.frees_owned hmade owned with ⟨-, hfrees⟩ | ⟨dead, -⟩
      · exact hfrees
      · exact absurd (dead.symm.trans live) Bool.false_ne_true
    · rcases (past.changes changes).sound.frees_owned (List.mem_append_left more hmade) owned with
        ⟨still, -⟩ | ⟨-, hfrees⟩
      · exact absurd (gone.symm.trans still) Bool.false_ne_true
      · exact hfrees

end Insertion

/-- **What the success of an insertion is worth.** An insertion either fails, and then no node has
been added and what it consumed has been released once, or it succeeds. If there is a collection
that can take what is inserted, success means that there is a node for it at the end. If there is
none, nothing has happened at all. -/
theorem insertion_receipt {s : Session} (running : s.Running) (i : Insertion) :
    (i.refused = true ∧ ∃ error t, i.act s = .error error t ∧ i.Returned s t) ∨
      (i.refused = false ∧ ∃ t, i.act s = .ok () t ∧
        (i.CanTake s → i.Received s t) ∧ (¬ i.CanTake s → t = s)) := by
  cases hrefused : i.refused with
  | true =>
    obtain ⟨fault, hact, -⟩ := Insertion.act_of_refused running.attached hrefused
    exact .inl ⟨rfl, _, _, hact, Insertion.returned running⟩
  | false =>
    refine .inr ⟨rfl, _, Insertion.act_of_accepted running.attached hrefused,
      Insertion.received running hrefused, fun none => ?_⟩
    rw [Insertion.acceptNode_of_not_canTake none]

/-- An array is inserted into the first of two collections. -/
def arrayInsertion : Insertion :=
  ⟨⟨.collection, .automatic, 1⟩, some "n", .container .numericArray 3⟩

theorem insertion_receipt_array :
    ∃ t, arrayInsertion.act stocked = .ok () t ∧ t.collectionLength 1 = 1 ∧
      t.reported (t.back 1) = (some "n", .numericArray, .ok (.numericArray 3)) := by
  have accepted : arrayInsertion.refused = false := by decide +kernel
  rcases insertion_receipt stocked_running arrayInsertion with
    ⟨refused, -⟩ | ⟨-, t, hact, received, -⟩
  · cases refused.symm.trans accepted
  · have hreceived := received ⟨by decide +kernel, by decide⟩
    have hlength : stocked.collectionLength arrayInsertion.list.handle + 1 = 1 := by decide +kernel
    exact ⟨t, hact, hreceived.length.trans hlength, hreceived.last⟩

/-! ## What goes unnoticed -/

/-- An array, and a list that has been freed. -/
def staleView : Session where
  host := Host.run {} [.newCollection, .hostArray (.tensor .integer) [2], .freeCollection 1]

/-- The array is inserted into the list. -/
def staleInsertion : Insertion := ⟨⟨.collection, .automatic, 1⟩, none, .container .tensor 2⟩

/-- A list is inserted into itself. -/
def selfInsertion : Insertion := ⟨⟨.collection, .automatic, 1⟩, none, .container .collection 1⟩

/-- If no collection has nodes, none has any. -/
theorem Host.nodesOf_eq_nil {w : Host} (none : ∀ e ∈ w.collections.entries, e.2 = []) (c : Handle) :
    w.nodesOf c = [] := by
  unfold nodesOf
  cases live : w.collections.get? c with
  | none => rfl
  | some nodes => exact none _ (Table.mem_entries_of_get? live)

/-- An insertion that is not refused and for which there is no collection leaves the session as it
is. -/
theorem Insertion.act_of_not_canTake {s : Session} {i : Insertion} (attached : s.attached = true)
    (accepted : i.refused = false) (none : ¬ i.CanTake s) : i.act s = .ok () s := by
  rw [act_of_accepted attached accepted, acceptNode_of_not_canTake none]

/-- **Success does not tell that a node has been added.** A freed list takes an array and a list
takes itself without an error. Nothing happens, and what was to be inserted stays live with no
owner. -/
theorem insertion_unnoticed :
    (staleInsertion.act staleView = .ok () staleView ∧ staleView.host.names .array 2 = true ∧
      staleView.host.freesOf 2 = 0 ∧ ∀ c, staleView.host.nodesOf c = []) ∧
    selfInsertion.act stocked = .ok () stocked ∧ stocked.host.names .collection 1 = true ∧
      stocked.host.freesOf 1 = 0 ∧ ∀ c, stocked.host.nodesOf c = [] := by
  constructor
  · have hhost : staleView.host = (Host.run {} [.newCollection,
        .hostArray (.tensor .integer) [2]]).removeCollection 1 [] := by
      have live : (Host.run {} [.newCollection,
          .hostArray (.tensor .integer) [2]]).collections.get? 1 = some [] := by rfl
      exact freeCollection_of_live live
    have dead : staleView.host.collections.contains 1 = false := by
      rw [hhost]
      decide +kernel
    refine ⟨Insertion.act_of_not_canTake rfl (by decide +kernel) fun canTake => ?_, ?_, ?_, ?_⟩
    · cases dead.symm.trans canTake.1
    · rw [hhost]
      decide +kernel
    · rw [hhost]
      decide +kernel
    · rw [hhost]
      exact Host.nodesOf_eq_nil (by decide +kernel)
  · refine ⟨Insertion.act_of_not_canTake rfl (by decide +kernel) fun canTake => canTake.2 rfl,
      ?_, ?_, ?_⟩
    · decide +kernel
    · decide +kernel
    · exact Host.nodesOf_eq_nil (by decide +kernel)

end Marshal
