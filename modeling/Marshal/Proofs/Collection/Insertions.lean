import Marshal.Collection.Insert
import Marshal.Proofs.Collection.Order
import Marshal.Proofs.Container.Moves
import Marshal.Proofs.Error.Registry
import Marshal.Proofs.Host.Requests
import Marshal.Proofs.Text.Utf8

/-!
# `Proofs.Collection.Insertions` — inserting appends to a list

Values, containers and contents of slots are appended to any number of collections, in any order.
Whether an insertion is refused can be said without looking at the session: it depends on what is
inserted, under which name, and on whether the target is the empty container. A collection that is
live in the end reads as it did before, followed by one node for each insertion into it that was not
refused, and each of these nodes reports the name, the kind and the value that were given.

## Contents

* `Item`, `Insertion`, `Insertion.act` — what is inserted, where, and the action that does it;
* `Insertion.refused`, `Insertion.appendsTo`, `Insertion.reported` — what is to be expected of it;
* `Session.Running`, `Session.insertAll` — the sessions in which insertions are carried out;
* `Insertion.act_of_accepted`, `Insertion.act_of_refused` — one insertion;
* `reported_insertAll` — what a run of insertions does to one collection;
* `insertAll_spec` — what a session reads before and after it.
-/

namespace Marshal

open Marshal.Host Marshal.Text

/-! ## Insertions -/

/-- What is inserted, and in which way: a value, a container that the library owns, the contents of a
slot of a known kind, or the contents of a slot whose kind has to be named. -/
inductive Item
  | value (v : Value)
  | container (kind : ContainerKind) (h : Handle)
  | slot (payload : Payload)
  | erased (kind : Kind) (payload : Payload)
  deriving DecidableEq, Repr

namespace Item

/-- The contents that the host is given. -/
def stored : Item → Payload
  | value v => v.payload
  | container kind h => .ofHandle kind.kind h
  | slot payload => payload
  | erased kind payload => payload.readAs kind

/-- The kind that is given. -/
def kind : Item → Kind
  | value v => v.kind
  | container kind _ => kind.kind
  | slot payload => payload.kind
  | erased kind _ => kind

/-- The value that is given. -/
def given : Item → Value
  | value v => v
  | container .tensor h => .tensor h
  | container .numericArray h => .numericArray h
  | container .collection h => .collection h
  | slot payload => payload.value
  | erased kind payload => (payload.readAs kind).value

/-- What ends its life when it cannot be inserted. -/
def consumed : Item → List Payload
  | container kind h => [.ofHandle kind.kind h]
  | _ => []

/-- Whether the kind that is named is the erased one. -/
def isErased : Item → Bool
  | erased .erased _ => true
  | _ => false

/-- Whether a text with a NUL is inserted as a value. -/
def textHasNul : Item → Bool
  | value (.text s) => hasNul s
  | _ => false

end Item

/-- An insertion into a list, under a name or none. -/
structure Insertion where
  list : Container
  name : Option String
  item : Item
  deriving DecidableEq, Repr

namespace Insertion

/-- The action that carries an insertion out. -/
def act (i : Insertion) : Act Unit :=
  match i.item with
  | .value v => i.list.pushValue i.name v
  | .container kind h => i.list.pushContainer i.name ⟨kind, .manual, h⟩
  | .slot payload => i.list.pushPayload i.name payload
  | .erased kind payload => i.list.pushErased i.name kind payload

def nameHasNul (i : Insertion) : Bool := i.name.any hasNul

/-- Whether an insertion is refused: the kind that is named is the erased one, or the target is empty,
or the name or the text contains NUL. -/
def refused (i : Insertion) : Bool :=
  i.item.isErased || i.list.handle == Handle.null || i.nameHasNul || i.item.textHasNul

/-- Whether an insertion adds a node to a collection. -/
def appendsTo (c : Handle) (i : Insertion) : Bool := i.list.handle == c && !i.refused

/-- What the new node reports. -/
def reported (i : Insertion) : Option String × Kind × Except Fault Value :=
  (i.name, i.item.kind, .ok i.item.given)

/-- What an insertion is refused for. The kind that is named is looked at before the target. -/
def complaint (i : Insertion) : Builtin :=
  if i.item.isErased then .erasedNode
  else if i.list.handle = Handle.null then .nullCollection
  else .pushBackType

end Insertion

/-! ## Sessions -/

/-- A session that a process gets to while the host's callback table is installed. -/
structure Session.Running (s : Session) : Prop where
  attached : s.attached = true
  registered : ∃ calls, s.registry = Registry.seeded.run calls
  hosted : ∃ made, History made s.host

/-- The session after some insertions. -/
def Session.insertAll (s : Session) (is : List Insertion) : Session :=
  is.foldl (fun s i => (outcome i.act s).2) s

/-! ## One insertion -/

theorem Act.order_of_attached {s : Session} (attached : s.attached = true) (action : Host → Host) :
    Act.order action s = .ok () { s with host := action s.host } := by
  simp [Act.order, Act.request, Session.request, attached]

/-- The host after the end of an item that cannot be inserted. -/
def Item.discarded (w : Host) : Item → Host
  | container kind h => if h = Handle.null then w else w.freeAll [.ofHandle kind.kind h]
  | _ => w

/-- A container that the library owns is released by freeing its contents. -/
theorem Container.release_of_attached {s : Session} (attached : s.attached = true)
    (kind : ContainerKind) (h : Handle) :
    Container.release ⟨kind, .manual, h⟩ s =
      .ok () { s with host := (Item.container kind h).discarded s.host } := by
  unfold Container.release Act.releaseHandle Item.discarded
  by_cases hnull : h = Handle.null
  · simp only [if_pos hnull]
    rfl
  · simp only [if_neg hnull]
    cases kind with
    | tensor =>
      show Act.order (·.freeArray h) s = _
      rw [Act.order_of_attached attached]
      simp [Payload.ofHandle, ContainerKind.kind, freeAll]
    | numericArray =>
      show Act.order (·.freeArray h) s = _
      rw [Act.order_of_attached attached]
      simp [Payload.ofHandle, ContainerKind.kind, freeAll]
    | collection =>
      show Act.order (·.freeCollection h) s = _
      rw [Act.order_of_attached attached]
      rfl

/-- The check of the target. -/
theorem insertionLabel_of_proper {list : Handle} {name : Option String} (proper : list ≠ Handle.null)
    (clean : name.any hasNul = false) : insertionLabel list name = .ok (name.map bytesOf) := by
  unfold insertionLabel
  rw [if_neg proper]
  cases name with
  | none => rfl
  | some name =>
    show (if hasNul name = true then _ else _) = _
    rw [if_neg (Bool.not_eq_true _ ▸ clean)]
    rfl

theorem insertionLabel_of_improper {list : Handle} {name : Option String}
    (improper : list = Handle.null ∨ name.any hasNul = true) :
    ∃ fault, insertionLabel list name = .error fault ∧
      fault.builtin = if list = Handle.null then .nullCollection else .pushBackType := by
  unfold insertionLabel
  by_cases hnull : list = Handle.null
  · exact ⟨.nullCollection, if_pos hnull, (if_pos hnull).symm⟩
  · rcases improper with h | hnul
    · exact absurd h hnull
    · cases name with
      | none => cases hnul
      | some name =>
        refine ⟨.nodeName name, ?_, (if_neg hnull).symm⟩
        rw [if_neg hnull]
        exact if_pos hnul

namespace Insertion

variable {i : Insertion} {s : Session}

/-- **An insertion that is not refused orders the host to take the contents.** -/
theorem act_eq_order (accepted : i.refused = false) (s : Session) :
    i.act s = Act.order (·.acceptNode i.list.handle (i.name.map bytesOf) i.item.stored) s := by
  obtain ⟨list, name, item⟩ := i
  simp only [refused, nameHasNul, Bool.or_eq_false_iff, beq_eq_false_iff_ne] at accepted
  obtain ⟨⟨⟨hkind, hproper⟩, hname⟩, htext⟩ := accepted
  have hlabel := insertionLabel_of_proper hproper hname
  cases item with
  | value v =>
    show list.pushValue name v s = _
    unfold Container.pushValue
    rw [hlabel, Act.ofExcept, pure_bind]
    cases v with
    | text t =>
      have htext : ¬ hasNul t = true := by simpa [Item.textHasNul] using htext
      dsimp only
      rw [if_neg htext]
      rfl
    | _ => rfl
  | container kind h =>
    show list.pushContainer name ⟨kind, .manual, h⟩ s = _
    unfold Container.pushContainer
    rw [hlabel]
    rfl
  | slot payload =>
    show list.pushPayload name payload s = _
    unfold Container.pushPayload
    rw [hlabel]
    rfl
  | erased kind payload =>
    show list.pushErased name kind payload s = _
    have hconcrete : kind ≠ .erased := by
      rintro rfl
      cases hkind
    unfold Container.pushErased Container.pushPayload
    rw [if_neg hconcrete, hlabel]
    rfl

/-- **An insertion that is not refused gives the host the contents.** -/
theorem act_of_accepted (attached : s.attached = true) (accepted : i.refused = false) :
    i.act s = .ok () { s with
      host := s.host.acceptNode i.list.handle (i.name.map bytesOf) i.item.stored } :=
  (act_eq_order accepted s).trans (Act.order_of_attached attached _)

/-- Without a proper target nothing happens but to what is consumed. -/
theorem act_of_improper {fault : Fault} (concrete : i.item.isErased = false)
    (free : i.item.consumed = []) (improper : insertionLabel i.list.handle i.name = .error fault)
    (s : Session) : i.act s = .error (s.registry.errorOf fault) s := by
  obtain ⟨list, name, item⟩ := i
  cases item with
  | value v =>
    show list.pushValue name v s = _
    unfold Container.pushValue
    rw [improper]
    rfl
  | container kind h => cases free
  | slot payload =>
    show list.pushPayload name payload s = _
    unfold Container.pushPayload
    rw [improper]
    rfl
  | erased kind payload =>
    show list.pushErased name kind payload s = _
    have hconcrete : kind ≠ .erased := by
      rintro rfl
      cases concrete
    unfold Container.pushErased Container.pushPayload
    rw [if_neg hconcrete, improper]
    rfl

/-- **An insertion that is refused ends the life of a container and changes nothing else.** -/
theorem act_of_refused (attached : s.attached = true) (refused : i.refused = true) :
    ∃ fault, i.act s = .error (s.registry.errorOf fault)
        { s with host := i.item.discarded s.host } ∧ fault.builtin = i.complaint := by
  obtain ⟨list, name, item⟩ := i
  simp only [Insertion.refused, nameHasNul, Bool.or_eq_true, beq_iff_eq, or_assoc] at refused
  by_cases herased : item.isErased = true
  · -- the erased kind is refused before the target is looked at
    refine ⟨.erasedNode, ?_, (if_pos herased).symm⟩
    cases item with
    | erased kind payload => cases kind <;> first | rfl | cases herased
    | _ => cases herased
  by_cases hbad : list.handle = Handle.null ∨ name.any hasNul = true
  · obtain ⟨fault, hlabel, hbuiltin⟩ := insertionLabel_of_improper hbad
    refine ⟨fault, ?_, hbuiltin.trans (if_neg herased).symm⟩
    cases item with
    | container kind h =>
      show list.pushContainer name ⟨kind, .manual, h⟩ s = _
      unfold Container.pushContainer
      rw [hlabel]
      show EStateM.bind (Container.release ⟨kind, .manual, h⟩) _ s = _
      rw [EStateM.bind, Container.release_of_attached attached]
      rfl
    | _ => exact act_of_improper (Bool.eq_false_iff.mpr herased) rfl hlabel s
  · -- the kind and the target are in order, so it is the text
    obtain ⟨hproper, hname⟩ := not_or.mp hbad
    have htext : item.textHasNul = true := by
      rcases refused with h | h | h | h
      · exact absurd h herased
      · exact absurd h hproper
      · exact absurd h hname
      · exact h
    cases item with
    | value v =>
      cases v with
      | text t =>
        have hlabel := insertionLabel_of_proper hproper (Bool.eq_false_iff.mpr hname)
        refine ⟨.nodeText, ?_, ?_⟩
        · show list.pushValue name (.text t) s = _
          unfold Container.pushValue
          rw [hlabel, Act.ofExcept, pure_bind]
          dsimp only
          rw [if_pos (show hasNul t = true from htext)]
          rfl
        · exact ((if_neg herased).trans (if_neg hproper)).symm
      | _ => cases htext
    | _ => cases htext

end Insertion

/-! ## What an insertion does to the collections -/

/-- Contents as the host keeps them: a missing text as an empty one. -/
def Payload.kept : Payload → Payload
  | .text none => .text (some [])
  | payload => payload

theorem Payload.kept_reports (p : Payload) : p.kept.kind = p.kind ∧ p.kept.value = p.value := by
  cases p with
  | text bytes =>
    cases bytes with
    | none => exact ⟨rfl, congrArg Value.text (lossyString_bytesOf "")⟩
    | some bytes => exact ⟨rfl, rfl⟩
  | _ => exact ⟨rfl, rfl⟩

/-- A node is appended unless a collection is put into itself. -/
theorem Host.acceptNode_eq (w : Host) {list : Handle} (label : Option Bytes) {payload : Payload}
    (apart : payload ≠ .collection list) :
    w.acceptNode list label payload = w.appendNode list label payload.kept := by
  cases payload with
  | text bytes => cases bytes <;> rfl
  | collection inner =>
    have hother : inner ≠ list := fun h => apart (h ▸ rfl)
    exact if_neg hother
  | _ => rfl

theorem Host.get?_collections_appendNode (w : Host) (list c : Handle) (label : Option Bytes)
    (payload : Payload) : (w.appendNode list label payload).collections.get? c =
      if list = c then (w.collections.get? c).map (· ++ [⟨w.nextId, label, payload⟩])
      else w.collections.get? c := by
  cases live : w.collections.get? list with
  | none =>
    have hsame : w.appendNode list label payload = w := by simp only [appendNode, live]
    rw [hsame]
    split
    · next h => rw [← h, live]; rfl
    · rfl
  | some nodes =>
    rw [appendNode_of_live live]
    show (w.collections.insert list _).get? c = _
    rw [Table.get?_insert]
    by_cases h : list = c
    · rw [if_pos h, if_pos h.symm, ← h, live]
      rfl
    · rw [if_neg h, if_neg (Ne.symm h)]

/-- Other collections stay, also when a collection is put into itself. -/
theorem Host.get?_collections_acceptNode_of_ne (w : Host) {list c : Handle} (label : Option Bytes)
    (payload : Payload) (other : list ≠ c) :
    (w.acceptNode list label payload).collections.get? c = w.collections.get? c := by
  by_cases hself : payload = .collection list
  · have hsame : w.acceptNode list label payload = w := by rw [hself]; exact if_pos rfl
    rw [hsame]
  · rw [w.acceptNode_eq label hself, get?_collections_appendNode, if_neg other]

namespace Item

/-- What is stored has the kind and the value that are given. -/
theorem stored_reports (item : Item) (concrete : item.isErased = false) :
    item.stored.kind = item.kind ∧ item.stored.value = item.given := by
  cases item with
  | value v =>
    refine ⟨v.kind_payload, ?_⟩
    cases v with
    | boolean b => cases b <;> rfl
    | text s => exact congrArg Value.text (lossyString_bytesOf s)
    | _ => rfl
  | container kind h => cases kind <;> exact ⟨rfl, rfl⟩
  | slot payload => exact ⟨rfl, rfl⟩
  | erased kind payload =>
    have hkind : kind ≠ .erased := by
      rintro rfl
      cases concrete
    exact ⟨payload.kind_readAs hkind, rfl⟩

variable (w : Host) (item : Item)

theorem discarded_evolves : Evolves w (item.discarded w) := by
  unfold discarded
  split
  · split
    · exact .refl w
    · exact .freeAll w _
  · exact .refl w

/-- Collections can only go. -/
theorem get?_discarded {c : Handle} {nodes : List Node}
    (live : (item.discarded w).collections.get? c = some nodes) :
    w.collections.get? c = some nodes := by
  unfold discarded at live
  split at live
  · split at live
    · exact live
    · rw [get?_collections_freeAll] at live
      split at live
      · cases live
      · exact live
  · exact live

/-- Those that the item does not own stay. -/
theorem get?_discarded_of_not_owned {c : Handle}
    (apart : ¬ Owned w.collections item.consumed (.collection c)) :
    (item.discarded w).collections.get? c = w.collections.get? c := by
  cases item with
  | container kind h =>
    show (if h = Handle.null then w else _).collections.get? c = _
    split
    · rfl
    · rw [get?_collections_freeAll]
      exact if_neg apart
  | _ => rfl

theorem discarded_of_consumed_nil (none : item.consumed = []) : item.discarded w = w := by
  cases item with
  | container kind h => cases none
  | _ => rfl

end Item

/-- A name is read back from the label that carries it. -/
theorem map_lossyString_bytesOf (name : Option String) :
    (name.map bytesOf).map lossyString = name := by
  cases name with
  | none => rfl
  | some name => exact congrArg some (lossyString_bytesOf name)

/-- What is stored for an insertion reports what was given. -/
theorem Insertion.reported_stored (i : Insertion) (accepted : i.refused = false) :
    ((i.name.map bytesOf).map lossyString, i.item.stored.kind, .ok i.item.stored.value) =
      i.reported := by
  have hconcrete : i.item.isErased = false := by
    simp only [refused, Bool.or_eq_false_iff] at accepted
    exact accepted.1.1.1
  obtain ⟨hkind, hvalue⟩ := i.item.stored_reports hconcrete
  rw [Insertion.reported, map_lossyString_bytesOf, hkind, hvalue]

/-- The node of an insertion reports what was given. -/
theorem Insertion.reported_kept (i : Insertion) (accepted : i.refused = false) (id : Handle) :
    Node.reported ⟨id, i.name.map bytesOf, i.item.stored.kept⟩ = i.reported := by
  obtain ⟨hkept, hkept'⟩ := i.item.stored.kept_reports
  rw [Node.reported, hkept, hkept', i.reported_stored accepted]

/-! ## Runs -/

namespace Session.Running

variable {s : Session}

/-- A session starts running with whatever has been asked of the host. -/
theorem of_requests (requests : List Request) : ({ host := run {} requests } : Session).Running :=
  ⟨rfl, ⟨[], rfl⟩, History.start.run requests⟩

/-- A session goes on running, whatever the host does. -/
theorem evolves (running : s.Running) {w : Host} (h : Evolves s.host w) :
    ({ s with host := w } : Session).Running := by
  obtain ⟨made, past⟩ := running.hosted
  obtain ⟨more, changes⟩ := h
  exact ⟨running.attached, running.registered, made ++ more, past.changes changes⟩

/-- A session goes on running, whatever is inserted. -/
theorem insert (running : s.Running) (i : Insertion) : (outcome i.act s).2.Running := by
  cases hrefused : i.refused with
  | false =>
    rw [outcome, Insertion.act_of_accepted running.attached hrefused]
    exact running.evolves (.acceptNode ..)
  | true =>
    obtain ⟨fault, hact, -⟩ := Insertion.act_of_refused running.attached hrefused
    rw [outcome, hact]
    exact running.evolves (i.item.discarded_evolves s.host)

theorem insertAll (running : s.Running) (is : List Insertion) : (s.insertAll is).Running := by
  induction is generalizing s with
  | nil => exact running
  | cons i is ih => exact ih (running.insert i)

end Session.Running

/-- **One insertion adds its node to the end of its target**, and nothing to any other collection. -/
theorem reported_insert {s : Session} {i : Insertion} {c : Handle} {nodes : List Node}
    (attached : s.attached = true) (apart : i.list.handle = c → i.item.stored ≠ .collection c)
    (live : (outcome i.act s).2.host.collections.get? c = some nodes) :
    ∃ before added, s.host.collections.get? c = some before ∧ nodes = before ++ added ∧
      added.map Node.reported = ([i].filter (·.appendsTo c)).map Insertion.reported := by
  cases hrefused : i.refused with
  | true =>
    obtain ⟨fault, hact, -⟩ := Insertion.act_of_refused attached hrefused
    rw [outcome, hact] at live
    have hnone : [i].filter (·.appendsTo c) = [] := by simp [Insertion.appendsTo, hrefused]
    exact ⟨nodes, [], i.item.get?_discarded s.host live, (List.append_nil _).symm, by rw [hnone]; rfl⟩
  | false =>
    rw [outcome, Insertion.act_of_accepted attached hrefused] at live
    change (s.host.acceptNode _ _ _).collections.get? c = _ at live
    by_cases hlist : i.list.handle = c
    · -- the node of the insertion
      have hself : i.item.stored ≠ .collection i.list.handle := by
        rw [hlist]
        exact apart hlist
      rw [s.host.acceptNode_eq _ hself, get?_collections_appendNode, if_pos hlist] at live
      obtain ⟨before, hbefore, hnodes⟩ := Option.map_eq_some_iff.mp live
      refine ⟨before, _, hbefore, hnodes.symm, ?_⟩
      have hone : [i].filter (·.appendsTo c) = [i] := by
        simp [Insertion.appendsTo, hrefused, hlist]
      rw [hone, List.map_singleton, List.map_singleton, i.reported_kept hrefused]
    · have hnone : [i].filter (·.appendsTo c) = [] := by simp [Insertion.appendsTo, hlist]
      rw [s.host.get?_collections_acceptNode_of_ne _ _ hlist] at live
      exact ⟨nodes, [], live, (List.append_nil _).symm, by rw [hnone]; rfl⟩

/-- **A run of insertions adds the nodes of those into a collection to its end**, in their order. -/
theorem reported_insertAll {s : Session} {is : List Insertion} {c : Handle} {nodes : List Node}
    (running : s.Running) (apart : ∀ i ∈ is, i.list.handle = c → i.item.stored ≠ .collection c)
    (live : (s.insertAll is).host.collections.get? c = some nodes) :
    ∃ before added, s.host.collections.get? c = some before ∧ nodes = before ++ added ∧
      added.map Node.reported = (is.filter (·.appendsTo c)).map Insertion.reported := by
  induction is generalizing s with
  | nil => exact ⟨nodes, [], live, (List.append_nil _).symm, rfl⟩
  | cons i is ih =>
    obtain ⟨middle, later, hmiddle, hnodes, hlater⟩ := ih (running.insert i)
      (fun j hj => apart j (List.mem_cons_of_mem _ hj)) live
    obtain ⟨before, first, hbefore, hsplit, hfirst⟩ :=
      reported_insert running.attached (apart i List.mem_cons_self) hmiddle
    refine ⟨before, first ++ later, hbefore, ?_, ?_⟩
    · rw [hnodes, hsplit, List.append_assoc]
    · rw [List.map_append, hfirst, hlater, ← List.map_append, ← List.filter_append]
      rfl

/-! ## What is read before and after -/

/-- **What a single insertion answers.** It fails exactly if it is refused, with the error of what is
complained about. Then every collection reads as before that is not owned by what was consumed, and if
nothing was consumed the session is the same. -/
structure Insertion.Answered (i : Insertion) (s : Session) : Prop where
  error_iff : (∃ error t, i.act s = .error error t) ↔ i.refused = true
  error_name : ∀ error t, i.act s = .error error t → error.kind.name =
    if i.item.isErased then "ArgumentAddNodeMArgument"
    else if i.list.handle = Handle.null then "DLNullRawDataStore"
    else "DLPushBackTypeError"
  kept : ∀ error t, i.act s = .error error t →
    ∀ c, ¬ Owned s.host.collections i.item.consumed (.collection c) →
      ∃ ids, s.Listed c ids ∧ t.Listed c ids ∧ ids.map t.reported = ids.map s.reported
  same : ∀ error t, i.act s = .error error t → i.item.consumed = [] → t = s

namespace Session.Running

variable {s : Session}

theorem listed (running : s.Running) (c : Handle) :
    s.Listed c ((s.host.nodesOf c).map (·.id)) := by
  obtain ⟨made, past⟩ := running.hosted
  exact Session.listed running.attached past.sound c

theorem map_reported (running : s.Running) (c : Handle) :
    ((s.host.nodesOf c).map (·.id)).map s.reported = (s.host.nodesOf c).map Node.reported := by
  obtain ⟨made, past⟩ := running.hosted
  exact Session.map_reported running.attached past.sound c

theorem name_errorOf (running : s.Running) (fault : Fault) :
    (s.registry.errorOf fault).kind.name = fault.builtin.name := by
  obtain ⟨calls, hregistry⟩ := running.registered
  rw [hregistry]
  exact (Registry.Grown.run calls).name_errorOf fault

/-- **Every insertion answers so in a running session.** -/
theorem answered (running : s.Running) (i : Insertion) : i.Answered s := by
  cases hrefused : i.refused with
  | false =>
    have hact := Insertion.act_of_accepted running.attached hrefused
    have hok : ∀ error t, i.act s ≠ .error error t := by
      intro error t herror
      rw [hact] at herror
      cases herror
    exact ⟨by rw [hrefused]; simp [hok], fun e t h => absurd h (hok e t),
      fun e t h => absurd h (hok e t), fun e t h => absurd h (hok e t)⟩
  | true =>
    obtain ⟨fault, hact, hbuiltin⟩ := Insertion.act_of_refused running.attached hrefused
    constructor
    case error_iff => exact iff_of_true ⟨_, _, hact⟩ hrefused
    case error_name =>
      intro error t herror
      rw [hact] at herror
      cases herror
      rw [running.name_errorOf fault, hbuiltin, Insertion.complaint]
      split
      · rfl
      · split <;> rfl
    case kept =>
      intro error t herror c hapart
      have hrunning := running.insert i
      rw [outcome, herror] at hrunning
      rw [hact] at herror
      cases herror
      -- the collection is untouched, and what is read depends on nothing else
      have hnodes : (i.item.discarded s.host).nodesOf c = s.host.nodesOf c :=
        congrArg (·.getD []) (i.item.get?_discarded_of_not_owned s.host hapart)
      have hlisted := hrunning.listed c
      have hreported := hrunning.map_reported c
      change Listed _ c (((i.item.discarded s.host).nodesOf c).map _) at hlisted
      change (((i.item.discarded s.host).nodesOf c).map _).map _ =
        ((i.item.discarded s.host).nodesOf c).map _ at hreported
      rw [hnodes] at hlisted hreported
      exact ⟨_, running.listed c, hlisted, hreported.trans (running.map_reported c).symm⟩
    case same =>
      intro error t herror hnone
      rw [hact, i.item.discarded_of_consumed_nil s.host hnone] at herror
      cases herror
      rfl

end Session.Running

/-- **Collections are ordered lists, and inserting appends to them.** -/
theorem insertAll_spec {s : Session} (running : s.Running) (is : List Insertion) :
    (∀ (t : Session) (i : Insertion), t.Running → i.Answered t) ∧
    ∀ c, (s.insertAll is).host.collections.contains c = true →
      (∀ i ∈ is, i.list.handle = c → i.item.stored ≠ .collection c) →
      ∃ before added, s.Listed c before ∧ (s.insertAll is).Listed c (before ++ added) ∧
        before.map (s.insertAll is).reported = before.map s.reported ∧
        added.map (s.insertAll is).reported =
          (is.filter (·.appendsTo c)).map Insertion.reported := by
  refine ⟨fun t i hrunning => hrunning.answered i, ?_⟩
  intro c live apart
  obtain ⟨nodes, hnodes⟩ := Table.contains_iff.mp live
  obtain ⟨before, added, hbefore, rfl, hadded⟩ := reported_insertAll running apart hnodes
  have hrunning := running.insertAll is
  have hthen : s.host.nodesOf c = before := by rw [nodesOf, hbefore]; rfl
  have hnow : (s.insertAll is).host.nodesOf c = before ++ added := by rw [nodesOf, hnodes]; rfl
  have hlisted := running.listed c
  have hlisted' := hrunning.listed c
  have hreported := running.map_reported c
  have hreported' := hrunning.map_reported c
  rw [hthen] at hlisted hreported
  rw [hnow, List.map_append] at hlisted'
  rw [hnow, List.map_append, List.map_append, List.map_append] at hreported'
  -- the old nodes and the new ones report separately
  obtain ⟨hold, hnew⟩ := List.append_inj hreported' (by simp only [List.length_map])
  exact ⟨before.map (·.id), added.map (·.id), hlisted, hlisted', hold.trans hreported.symm,
    hnew.trans hadded⟩

/-- A session with two collections and an array. -/
def stocked : Session where
  host := Host.run {} [.newCollection, .newCollection, .hostArray (.numeric .int8) [2]]

theorem stocked_running : stocked.Running := by
  obtain ⟨made, past⟩ := History.start.run
    [.newCollection, .newCollection, .hostArray (.numeric .int8) [2]]
  exact ⟨rfl, ⟨[], rfl⟩, made, past⟩

/-- Insertions into both collections by turns, two of them refused, and at last of one collection into
the other. -/
def mixedInsertions : List Insertion :=
  [⟨⟨.collection, .manual, 1⟩, some "n", .value (.integer 3)⟩,
    ⟨⟨.collection, .manual, 2⟩, none, .value (.text "é")⟩,
    ⟨⟨.collection, .manual, 1⟩, some "n", .container .numericArray 3⟩,
    ⟨⟨.collection, .manual, 1⟩, some "a\x00b", .value (.boolean true)⟩,
    ⟨⟨.collection, .manual, 1⟩, none, .erased .erased (.integer 5)⟩,
    ⟨⟨.collection, .manual, 1⟩, none, .erased .boolean (.boolean 7)⟩,
    ⟨⟨.collection, .manual, 1⟩, none, .container .collection 2⟩]

/-- The first collection has the four nodes that were not refused, two of them under one name. -/
theorem insertAll_spec_mixedInsertions :
    ∃ ids, (stocked.insertAll mixedInsertions).Listed 1 ids ∧
      ids.map (stocked.insertAll mixedInsertions).reported =
        [(some "n", .integer, .ok (.integer 3)), (some "n", .numericArray, .ok (.numericArray 3)),
          (none, .boolean, .ok (.boolean true)), (none, .collection, .ok (.collection 2))] := by
  have live : (stocked.insertAll mixedInsertions).host.collections.contains 1 = true := by
    decide +kernel
  have apart : ∀ i ∈ mixedInsertions, i.list.handle = 1 → i.item.stored ≠ .collection 1 := by
    decide +kernel
  obtain ⟨before, added, hbefore, hafter, -, hadded⟩ :=
    (insertAll_spec stocked_running mixedInsertions).2 1 live apart
  have hempty : before = [] := hbefore.nodes.symm.trans (by decide +kernel)
  have happended : mixedInsertions.filter (·.appendsTo 1) =
      [⟨⟨.collection, .manual, 1⟩, some "n", .value (.integer 3)⟩,
        ⟨⟨.collection, .manual, 1⟩, some "n", .container .numericArray 3⟩,
        ⟨⟨.collection, .manual, 1⟩, none, .erased .boolean (.boolean 7)⟩,
        ⟨⟨.collection, .manual, 1⟩, none, .container .collection 2⟩] := by decide +kernel
  rw [hempty, List.nil_append] at hafter
  rw [happended] at hadded
  exact ⟨added, hafter, hadded⟩

/-- A session with a collection that holds another one. -/
def nestedCollections : Session where
  host := Host.run {} [.newCollection, .newCollection, .addNode 1 none (.collection 2)]

theorem nestedCollections_running : nestedCollections.Running := by
  obtain ⟨made, past⟩ := History.start.run
    [.newCollection, .newCollection, .addNode 1 none (.collection 2)]
  exact ⟨rfl, ⟨[], rfl⟩, made, past⟩

/-- **The target, the name and the text are not all that an insertion is refused for**, and it is not
only the collection consumed that a refused insertion may change: the erased kind is refused for a live
target too, and what the consumed collection holds ends its life with it. -/
theorem insertion_refused_otherwise :
    (¬ ∀ (s : Session) (i : Insertion), s.Running →
      s.host.collections.contains i.list.handle = true →
        ((∃ error t, i.act s = .error error t) ↔
          i.list.handle = Handle.null ∨ i.nameHasNul = true ∨ i.item.textHasNul = true)) ∧
    ¬ ∀ (s t : Session) (i : Insertion) (error : Raised) (c : Handle), s.Running →
      i.act s = .error error t → .collection c ∉ i.item.consumed →
        s.host.collections.contains c = true → t.host.collections.contains c = true := by
  constructor
  · intro h
    have herased := h stocked ⟨⟨.collection, .manual, 1⟩, none, .erased .erased (.integer 11)⟩
      stocked_running (by decide +kernel)
    have hfailed := herased.mp ⟨_, _, rfl⟩
    revert hfailed
    decide
  · intro h
    let i : Insertion := ⟨.empty .collection .manual, none, .container .collection 1⟩
    obtain ⟨fault, hact, -⟩ := Insertion.act_of_refused
      (i := i) nestedCollections_running.attached (by decide)
    have hlive := h _ _ i _ 2 nestedCollections_running hact (by decide) (by decide +kernel)
    -- the second collection is reached through the node of the first
    have howned : Owned nestedCollections.host.collections [.collection 1] (.collection 2) :=
      .inside (n := ⟨3, none, .collection 2⟩) (.here (List.mem_singleton.mpr rfl)) (by rfl)
        (List.mem_singleton.mpr rfl)
    have hgone : (i.item.discarded nestedCollections.host).collections.get? 2 = none := by
      show (nestedCollections.host.freeAll [.collection 1]).collections.get? 2 = none
      rw [get?_collections_freeAll, if_pos howned]
    obtain ⟨nodes, hnodes⟩ := Table.contains_iff.mp hlive
    cases hgone.symm.trans hnodes

end Marshal
