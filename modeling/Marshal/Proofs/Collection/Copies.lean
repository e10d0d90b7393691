import Mathlib.Data.List.Forall2
import Marshal.Proofs.Container.Anywhere

/-!
# `Proofs.Collection.Copies` — which lists can be copied, and how a copy reads

A container that is empty is copied as an empty one, and it can be appended to a list like any other;
what the list holds then is a null handle. The host copies a list by copying what its nodes hold, and
it has no copy of null. So a list that somebody has built can be copied exactly if no node in it, at
whatever depth, holds null. The copy reads like the list, all the way down.

## Contents

* `Session.HoldsNull` — a node in a list, or further down, holds a null handle;
* `Session.SameArray`, `Session.ReadsSame` — values that read the same in two sessions;
* `Session.holdsNull_iff`, `Session.readsSame_of_copied` — what that means on the host;
* `copy_built` — copies of lists that programs have built.
-/

namespace Marshal

open Marshal.Host Marshal.Text

/-! ## What is read -/

/-- **A node in a list holds a null handle**, or a node in a list that a node holds, and so on. -/
inductive Session.HoldsNull (s : Session) : Handle → Prop
  | here {c n : Handle} {v : Value} {u : Use} (mem : n ∈ s.nodes c) (value : s.nodeValue n = .ok v)
      (null : v.payload.stored = some (u, Handle.null)) : HoldsNull s c
  | deeper {c n d : Handle} (mem : n ∈ s.nodes c) (value : s.nodeValue n = .ok (.collection d))
      (inner : HoldsNull s d) : HoldsNull s c

/-- Arrays of which the same is shown. -/
structure Session.SameArray (s t : Session) (h k : Handle) : Prop where
  tensorType : s.tensorType? h = t.tensorType? k
  numericType : s.numericType h = t.numericType k
  rank : s.rank h = t.rank k
  dims : s.dims h = t.dims k
  length : s.length h = t.length k
  data : ∀ type, s.ask none (·.dataAs? type h) = t.ask none (·.dataAs? type k)

/-- **Values that read the same in two sessions**: numbers and texts are equal, null handles of a kind
go together, arrays show the same, and lists have the same names and kinds in the same order, with
values that read the same in their turn. -/
inductive Session.ReadsSame (s t : Session) : Value → Value → Prop
  | plain {v : Value} (taken : v.payload.stored = none) : ReadsSame s t v v
  | null (kind : ContainerKind) :
      ReadsSame s t (Payload.ofHandle kind.kind Handle.null).value
        (Payload.ofHandle kind.kind Handle.null).value
  | tensor {h k : Handle} (same : s.SameArray t h k) : ReadsSame s t (.tensor h) (.tensor k)
  | numericArray {h k : Handle} (same : s.SameArray t h k) :
      ReadsSame s t (.numericArray h) (.numericArray k)
  | collection {c d : Handle} {values values' : List Value}
      (names : (s.nodes c).map s.nodeName = (t.nodes d).map t.nodeName)
      (kinds : (s.nodes c).map s.nodeKind = (t.nodes d).map t.nodeKind)
      (read : (s.nodes c).map s.nodeValue = values.map .ok)
      (read' : (t.nodes d).map t.nodeValue = values'.map .ok)
      (inner : ∀ q ∈ values.zip values', ReadsSame s t q.1 q.2) :
      ReadsSame s t (.collection c) (.collection d)

/-! ## What that means on the host -/

/-- What is carried to a reader is stored under the same handle. -/
theorem Payload.stored_value (p : Payload) : p.value.payload.stored = p.stored := by
  cases p with
  | text b => cases b <;> rfl
  | _ => rfl

/-- What is copied keeps its kind. -/
theorem Host.Copied.kind_eq {w w' : Host} {p p' : Payload} (h : Copied w w' p p') :
    p.kind = p'.kind := by
  cases h <;> rfl

/-- A collection with nodes is live. -/
theorem Host.get?_of_mem_nodesOf {w : Host} {c : Handle} {n : Node} (mem : n ∈ w.nodesOf c) :
    w.collections.get? c = some (w.nodesOf c) := by
  unfold nodesOf at mem ⊢
  cases found : w.collections.get? c with
  | none =>
    rw [found] at mem
    cases mem
  | some nodes => rfl

namespace Session

variable {s t : Session} {made made' : List (Handle × Use)} {c : Handle}

/-- A node that is read of a collection is there. -/
theorem exists_node (attached : s.attached = true) (sound : Sound made s.host) {n : Handle}
    (mem : n ∈ s.nodes c) : ∃ m ∈ s.host.nodesOf c, m.id = n ∧ s.nodeValue n = .ok m.payload.value := by
  rw [(listed attached sound c).nodes] at mem
  obtain ⟨m, hm, rfl⟩ := List.mem_map.mp mem
  exact ⟨m, hm, rfl, nodeValue_of_mem attached sound hm⟩

/-- What holds null owns something that is null. -/
theorem HoldsNull.owned (attached : s.attached = true) (sound : Sound made s.host)
    (h : s.HoldsNull c) :
    ∃ q u, Owned s.host.collections [.collection c] q ∧ q.stored = some (u, Handle.null) := by
  induction h with
  | here mem value null =>
    obtain ⟨m, hm, -, hvalue⟩ := exists_node attached sound mem
    obtain rfl := Except.ok.inj (value.symm.trans hvalue)
    rw [Payload.stored_value] at null
    exact ⟨_, _, .inside owned_self (get?_of_mem_nodesOf hm) hm, null⟩
  | @deeper c n d mem value _ ih =>
    obtain ⟨m, hm, -, hvalue⟩ := exists_node attached sound mem
    obtain ⟨q, u, hq, null⟩ := ih
    have hpayload : m.payload = .collection d := by
      have hd := Except.ok.inj (value.symm.trans hvalue)
      revert hd
      cases m.payload with
      | text b => cases b <;> rintro ⟨⟩
      | _ => rintro ⟨⟩ <;> rfl
    exact ⟨q, u, owned_of_node (get?_of_mem_nodesOf hm) hm (hpayload ▸ hq), null⟩

/-- What is owned holds null only if the owner does, and is null only if the owner holds null. -/
theorem holdsNull_of_owned (attached : s.attached = true) (sound : Sound made s.host) {q : Payload}
    (h : Owned s.host.collections [.collection c] q) :
    (∀ d, q = .collection d → s.HoldsNull d → s.HoldsNull c) ∧
      (∀ u, q.stored = some (u, Handle.null) → q = .collection c ∨ s.HoldsNull c) := by
  induction h with
  | here mem =>
    obtain rfl := List.mem_singleton.mp mem
    exact ⟨fun d hd hnull => Payload.collection.inj hd ▸ hnull, fun _ _ => .inl rfl⟩
  | @inside d nodes n _ found hn ih =>
    have hmem : n ∈ s.host.nodesOf d := by
      rw [nodesOf, found]
      exact hn
    have hread : n.id ∈ s.nodes d := by
      rw [(listed attached sound d).nodes]
      exact List.mem_map_of_mem hmem
    have hvalue := nodeValue_of_mem attached sound hmem
    refine ⟨fun e he hnull => ih.1 d rfl (.deeper hread (hvalue.trans ?_) hnull), fun u null => ?_⟩
    · rw [he]
      rfl
    · have hstored := n.payload.stored_value.trans null
      exact .inr (ih.1 d rfl (.here hread hvalue hstored))

/-- **No null inside.** All that a list owns is live exactly if no node in it holds null, given that it
holds no dead handles. -/
theorem holdsNull_iff (attached : s.attached = true) (sound : Sound made s.host)
    (hnull : c ≠ Handle.null) (kept : NullOrLive s.host (.collection c)) :
    (∀ q, Owned s.host.collections [.collection c] q → Live s.host q) ↔ ¬ s.HoldsNull c := by
  constructor
  · intro live h
    obtain ⟨q, u, hq, null⟩ := h.owned attached sound
    exact absurd (sound.lt_next (live q hq u _ null)).1 (Nat.lt_irrefl 0)
  · intro free q hq u h stored
    rcases kept q u h hq stored with rfl | hnamed
    · rcases (holdsNull_of_owned attached sound hq).2 u stored with rfl | hholds
      · cases stored
        exact absurd rfl hnull
      · exact absurd hholds free
    · exact hnamed

/-- A copied array shows the same. -/
theorem sameArray_of_copied (attached : s.attached = true) (attached' : t.attached = true)
    {h k : Handle} {a : Dense} (source : s.host.arrays.get? h = some a)
    (copy : t.host.arrays.get? k = some { a with shares := 0 }) : s.SameArray t h k := by
  have hcopy : ∀ type, t.host.dataAs? type k = s.host.dataAs? type h := by
    intro type
    rw [Host.dataAs?, Host.dataAs?, source, copy]
    rfl
  constructor
  case data =>
    intro type
    rw [ask_of_attached attached, ask_of_attached attached', hcopy]
  all_goals
    simp only [tensorType?, numericType, rank, dims, length, ask_of_attached attached,
      ask_of_attached attached', elementCode, Host.rank, Host.dims?, Host.length, source, copy,
      Option.map_some, Option.getD_some]

/-- What is told about the nodes of a collection, part by part. -/
theorem map_told {α : Type} (attached : s.attached = true) (sound : Sound made s.host) (c : Handle)
    (f : Option String × Kind × Except Fault Value → α) :
    (s.nodes c).map (f ∘ s.reported) = (s.host.nodesOf c).map (f ∘ Node.reported) := by
  rw [(listed attached sound c).nodes, ← List.map_map, map_reported attached sound, List.map_map]

/-- **A copy reads like its source.** -/
theorem readsSame_of_copied (attached : s.attached = true) (attached' : t.attached = true)
    (sound : Sound made s.host) (sound' : Sound made' t.host) {p p' : Payload}
    (h : Copied s.host t.host p p') : s.ReadsSame t p.value p'.value := by
  induction h with
  | @plain p taken => exact .plain (p.stored_value.trans taken)
  | tensor source copy => exact .tensor (sameArray_of_copied attached attached' source copy)
  | numericArray source copy =>
    exact .numericArray (sameArray_of_copied attached attached' source copy)
  | @collection c c' nodes nodes' source copy names inner ih =>
    have hnodes : s.host.nodesOf c = nodes := by rw [nodesOf, source]; rfl
    have hnodes' : t.host.nodesOf c' = nodes' := by rw [nodesOf, copy]; rfl
    have told : ∀ {α : Type} (f : Option String × Kind × Except Fault Value → α),
        (s.nodes c).map (f ∘ s.reported) = nodes.map (f ∘ Node.reported) :=
      fun f => hnodes ▸ map_told attached sound c f
    have told' : ∀ {α : Type} (f : Option String × Kind × Except Fault Value → α),
        (t.nodes c').map (f ∘ t.reported) = nodes'.map (f ∘ Node.reported) :=
      fun f => hnodes' ▸ map_told attached' sound' c' f
    have hlength : nodes.length = nodes'.length := by
      simpa using (congrArg List.length names).symm
    have hkinds : nodes.map (·.payload.kind) = nodes'.map (·.payload.kind) := by
      refine (congrFun₂ List.forall₂_eq_eq_eq _ _).mp ?_
      rw [List.forall₂_map_left_iff, List.forall₂_map_right_iff, List.forall₂_iff_zip]
      exact ⟨hlength, fun hq => (inner _ hq).kind_eq⟩
    refine @ReadsSame.collection s t c c' (nodes.map (·.payload.value)) (nodes'.map (·.payload.value))
      ?_ ?_ ?_ ?_ ?_
    · have hnames : nodes.map (fun n => n.name.map lossyString) =
          nodes'.map (fun n => n.name.map lossyString) := by
        have := congrArg (List.map (Option.map lossyString)) names.symm
        rwa [List.map_map, List.map_map] at this
      exact (told (·.1)).trans (hnames.trans (told' (·.1)).symm)
    · exact (told (·.2.1)).trans (hkinds.trans (told' (·.2.1)).symm)
    · rw [List.map_map]
      exact told (·.2.2)
    · rw [List.map_map]
      exact told' (·.2.2)
    · intro q hq
      rw [List.zip_map] at hq
      obtain ⟨r, hr, rfl⟩ := List.mem_map.mp hq
      exact ih r hr

end Session

/-! ## Copies of lists -/

/-- **Copies of lists that programs have built.** In a running session, whatever is on its host, let a
program that begins without variables carry out any operations, and take a list in one of its variables.
The list can be copied exactly if no node in it, at whatever depth, holds a null handle. The library owns
the copy, which reads like the list: the same names, kinds, numbers and texts in the same order, the same
elements, and so on in the lists that it holds. If there is no copy, the error says so. -/
theorem copy_built {s : Session} (running : s.Running) (call : Call) (ops : List Op) {p : Program}
    (built : (Program.enter s call).run ops = p) {x : Nat} {l : Container}
    (found : p.vars.get? x = some l) (hlist : l.kind = .collection) :
    ((∃ m t, l.copy p.session = .ok m t) ↔ ¬ p.session.HoldsNull l.handle) ∧
    (∀ m t, l.copy p.session = .ok m t → m.mode = .manual ∧
      p.session.ReadsSame t l.payload.value m.payload.value) ∧
    (∀ e t, l.copy p.session = .error e t → e.kind.name = "DLCloneError") := by
  subst built
  obtain ⟨running', kept⟩ := Program.wellKept_run running call ops
  obtain ⟨-, kept⟩ := kept x l found
  generalize (Program.enter s call).run ops = p at *
  obtain ⟨kind, mode, c⟩ := l
  obtain rfl : kind = .collection := hlist
  obtain ⟨made, past⟩ := running'.hosted
  by_cases hnull : c = Handle.null
  · -- an empty list is copied as an empty one
    subst hnull
    have hcopy : (⟨.collection, mode, Handle.null⟩ : Container).copy p.session =
        .ok ⟨.collection, .manual, Handle.null⟩ p.session := rfl
    have hempty : ¬ p.session.HoldsNull Handle.null := by
      intro h
      obtain ⟨n, hn⟩ : ∃ n, n ∈ p.session.nodes Handle.null := by
        cases h with
        | here mem => exact ⟨_, mem⟩
        | deeper mem => exact ⟨_, mem⟩
      obtain ⟨m, hm, -⟩ := Session.exists_node running'.attached past.sound hn
      rw [past.sound.nodesOf_null] at hm
      cases hm
    refine ⟨iff_of_true ⟨_, _, hcopy⟩ hempty, fun m t h => ?_, fun e t h => ?_⟩
    · cases hcopy.symm.trans h
      exact ⟨rfl, .null .collection⟩
    · cases hcopy.symm.trans h
  · have hcopy := Container.copy_list_eq running'.attached mode hnull
    obtain ⟨hsome, hcopied, -⟩ := copyCollection_spec past (kept.acyclic c rfl) (kept.settled _)
    rw [Session.holdsNull_iff running'.attached past.sound hnull kept.live] at hsome
    obtain ⟨more, hmore⟩ := Evolves.copyCollection p.session.host c
    have past' := past.changes hmore
    cases hmade : (p.session.host.copyCollection c).1 with
    | none =>
      rw [hmade] at hcopy hsome
      refine ⟨iff_of_false ?_ fun h => ?_, fun m t h => ?_, fun e t h => ?_⟩
      · rintro ⟨m, t, h⟩
        cases hcopy.symm.trans h
      · cases hsome.mpr h
      · cases hcopy.symm.trans h
      · cases hcopy.symm.trans h
        exact running'.name_errorOf _
    | some k =>
      rw [hmade] at hcopy hsome
      refine ⟨iff_of_true ⟨_, _, hcopy⟩ (hsome.mp rfl), fun m t h => ?_, fun e t h => ?_⟩
      · cases hcopy.symm.trans h
        have attached' : ({ p.session with host := (p.session.host.copyCollection c).2 } :
            Session).attached = true := running'.attached
        exact ⟨rfl, Session.readsSame_of_copied running'.attached attached' past.sound past'.sound
          (hcopied k hmade).1⟩
      · cases hcopy.symm.trans h

/-- A session whose host has a collection that contains itself and holds a handle which is still to be
given out. -/
def untidy : Session where
  host := Host.run {} [.newCollection, .newCollection, .addNode 1 none (.collection 2),
    .addNode 2 none (.collection 1), .addNode 1 none (.tensor 7)]

/-- A list of an array, a text and a list of a number. -/
def nestedBuilding : List Op :=
  [.newList 0, .newArray 1 (.tensor .integer) [2], .push 0 (some "a") 1 (by decide),
    .pushValue 0 none (.text "é") rfl, .newList 2, .pushValue 2 (some "n") (.integer (-1)) rfl,
    .push 0 none 2 (by decide)]

/-- It is copied, and the copy reads like the list. -/
theorem copy_built_nestedBuilding : ∃ l m t,
    ((Program.enter untidy ⟨0, [], [], none⟩).run nestedBuilding).vars.get? 0 = some l ∧
      l.copy ((Program.enter untidy ⟨0, [], [], none⟩).run nestedBuilding).session = .ok m t ∧
        ((Program.enter untidy ⟨0, [], [], none⟩).run nestedBuilding).session.ReadsSame t
          l.payload.value m.payload.value := by
  have running : untidy.Running := by
    obtain ⟨made, past⟩ := History.start.run [.newCollection, .newCollection,
      .addNode 1 none (.collection 2), .addNode 2 none (.collection 1), .addNode 1 none (.tensor 7)]
    exact ⟨rfl, ⟨[], rfl⟩, made, past⟩
  have found : ((Program.enter untidy ⟨0, [], [], none⟩).run nestedBuilding).vars.get? 0 =
      some ⟨.collection, .manual, 6⟩ := by decide +kernel
  obtain ⟨-, reads, -⟩ := copy_built running ⟨0, [], [], none⟩ nestedBuilding rfl found rfl
  have running' := (Program.wellKept_run running ⟨0, [], [], none⟩ nestedBuilding).1
  have hcopy : (((Program.enter untidy ⟨0, [], [], none⟩).run nestedBuilding).host.copyCollection 6).1 =
      some 13 := by decide +kernel
  have copied := Container.copy_of_copyCollection _ .manual running'.attached (by decide) hcopy
  exact ⟨_, _, _, found, copied, (reads _ _ copied).2⟩

/-- **An empty array in a list keeps the list from being copied**, though it is appended without an
error, and though it is itself copied as an empty one. -/
theorem copy_refused_emptyInside : ∃ l s t e t',
    Act.newCollection {} = .ok l s ∧
      l.pushContainer none (.empty .tensor .manual) s = .ok () t ∧
      (Container.empty .tensor .manual).copy t = .ok (.empty .tensor .manual) t ∧
      l.copy t = .error e t' ∧ e.kind.name = "DLCloneError" :=
  ⟨_, _, _, _, _, rfl, rfl, rfl, rfl, rfl⟩

end Marshal
