import Marshal.Call
import Marshal.Proofs.Collection.Receipts

/-!
# `Proofs.Collection.Routes` — all routes into a list build the same node

The contents of an argument slot get into a list in several ways: taken out and handed on, from the slot
wrapped at its kind, from the slot wrapped without a kind and with the kind named, or read as a value and
pushed. They do not hand the host the same contents. A truth value is stored as the slot has it or as one
and zero, a text as the slot has it or with its faulty pieces replaced, and a missing text becomes an empty
one. What is read of the new node is the same all the same, and is what is read of the slot. For a text that
was replaced once this is so because nothing is left to replace, and it can be pushed because replacing
makes no NUL.

## Contents

* `Route`, `Route.act` — the routes;
* `Route.insertion`, `Route.act_eq` — each route is an insertion;
* `RoutesAgree`, `routes_agree` — what they have in common.
-/

namespace Marshal

open Marshal.Host Marshal.Text

/-! ## Routes -/

/-- The ways to get the contents of an argument slot into a list. -/
inductive Route
  /-- The contents, taken out at their kind and handed on as a node of this kind. -/
  | contents
  /-- The slot, wrapped at its kind. -/
  | slot
  /-- The slot, wrapped without a kind. The kind is named. -/
  | erased
  /-- The value that the slot is read as. -/
  | value
  deriving DecidableEq, Repr

namespace Route

/-- Take a route from an argument slot of some kind. -/
def act (route : Route) (c : Call) (kind : Kind) (index : Nat) (list : Container)
    (name : Option String) : Act Unit :=
  match route with
  | contents => do
    let payload ← Act.ofExcept (c.payload kind index)
    list.pushPayload name payload
  | slot => do
    let n ← Act.ofExcept (c.wrap kind index)
    list.pushPayload name ((c.cell n).readAs kind)
  | erased => do
    let n ← Act.ofExcept (c.wrap .erased index)
    list.pushErased name kind (c.cell n)
  | value =>
    match c.valueAs? kind index with
    | some v => list.pushValue name v
    | none => pure ()

/-- What is inserted on a route. -/
def item (route : Route) (p : Payload) : Item :=
  match route with
  | contents => .slot p
  | slot => .slot p
  | erased => .erased p.kind p
  | value => .value p.value

/-- The insertion that a route comes to. -/
def insertion (route : Route) (p : Payload) (list : Container) (name : Option String) : Insertion :=
  ⟨list, name, route.item p⟩

end Route

/-- An argument slot, its cell and what the cell holds. A text in it ends at its first NUL, so it has
none. -/
structure Call.Argument (c : Call) (index : Nat) (p : Payload) : Prop where
  slot : ∃ n, c.slot index = .ok (some n) ∧ c.cell n = p
  text : ∀ b, p = .text (some b) → 0 ∉ b

variable {c : Call} {index : Nat} {p : Payload}

/-- A slot is read as the value of what it holds. -/
theorem Call.Argument.valueAs? (argument : c.Argument index p) :
    c.valueAs? p.kind index = some p.value := by
  obtain ⟨n, hslot, rfl⟩ := argument.slot
  have htarget : c.target index = some n := by
    unfold Call.slot at hslot
    split at hslot
    · exact Except.ok.inj hslot
    · cases hslot
  rw [Call.valueAs?, htarget]
  dsimp only
  rw [Payload.valueAs?, if_neg (Payload.kind_ne_erased _), Payload.readAs_kind]

namespace Route

/-- **Each route is an insertion** of what the slot holds. -/
theorem act_eq (route : Route) (argument : c.Argument index p) (list : Container)
    (name : Option String) :
    route.act c p.kind index list name = (route.insertion p list name).act := by
  have hvalue := argument.valueAs?
  obtain ⟨n, hslot, rfl⟩ := argument.slot
  have hwrap : ∀ kind, c.wrap kind index = .ok n := by
    intro kind
    rw [Call.wrap, hslot]
    rfl
  have hpayload : c.payload (c.cell n).kind index = .ok (c.cell n) := by
    rw [Call.payload, hslot]
    show Except.ok ((c.cell n).readAs (c.cell n).kind) = _
    rw [Payload.readAs_kind]
  cases route with
  | contents =>
    dsimp only [act]
    rw [hpayload]
    rfl
  | slot =>
    dsimp only [act]
    rw [hwrap]
    show list.pushPayload name ((c.cell n).readAs (c.cell n).kind) = _
    rw [Payload.readAs_kind]
    rfl
  | erased =>
    dsimp only [act]
    rw [hwrap]
    rfl
  | value =>
    dsimp only [act]
    rw [hvalue]
    rfl

variable (route : Route)

/-- No route names the erased kind. -/
theorem isErased_item (p : Payload) : (route.item p).isErased = false := by
  cases route <;> cases p <;> rfl

theorem consumed_item (p : Payload) : (route.item p).consumed = [] := by
  cases route <;> rfl

/-- What is stored on a route has the slot's kind and value. -/
theorem stored_item_reports (p : Payload) :
    (route.item p).stored.kind = p.kind ∧ (route.item p).stored.value = p.value := by
  have stored := (route.item p).stored_reports (route.isErased_item p)
  cases route with
  | contents => exact stored
  | slot => exact stored
  | erased => exact ⟨stored.1, stored.2.trans (congrArg Payload.value p.readAs_kind)⟩
  | value => exact ⟨stored.1.trans p.kind_value, stored.2⟩

/-- What is stored on a route is the collection that the slot holds, if it holds one. -/
theorem stored_item_eq_collection {p : Payload} {h : Handle} :
    (route.item p).stored = .collection h ↔ p = .collection h := by
  cases route with
  | contents => exact Iff.rfl
  | slot => exact Iff.rfl
  | erased =>
    show p.readAs p.kind = _ ↔ _
    rw [Payload.readAs_kind]
  | value =>
    show p.value.payload = _ ↔ _
    cases p with
    | text bytes => cases bytes <;> exact iff_of_false nofun nofun
    | collection k => exact Iff.rfl
    | _ => exact iff_of_false nofun nofun

/-- The text of a slot can be pushed on each route. -/
theorem textHasNul_item (argument : c.Argument index p) : (route.item p).textHasNul = false := by
  cases route with
  | value =>
    cases p with
    | text bytes =>
      cases bytes with
      | none => rfl
      | some b => exact hasNul_lossyString (argument.text b rfl)
    | _ => rfl
  | _ => rfl

/-- On each route only the target and the name are looked at. -/
theorem refused_insertion (argument : c.Argument index p) {list : Container} {name : Option String}
    (proper : list.handle ≠ Handle.null) (clean : name.any hasNul = false) :
    (route.insertion p list name).refused = false := by
  have hproper : (list.handle == Handle.null) = false := beq_eq_false_iff_ne.mpr proper
  have hname : (route.insertion p list name).nameHasNul = false := clean
  simp only [Insertion.refused, insertion, route.isErased_item, route.textHasNul_item argument,
    hproper, Bool.or_false, Bool.false_or]
  exact hname

end Route

/-! ## What the routes have in common -/

/-- **The routes from a slot into a list agree.** If the list is empty or the name contains NUL, all of
them fail with one error and change nothing. If the list holds a live collection other than the one in the
slot, all of them succeed and the collection has one node more, whose name and kind are those that were
given and whose value is the one that the slot is read as. While there is no host all of them succeed and
change nothing. -/
structure RoutesAgree (s : Session) (c : Call) (index : Nat) (p : Payload) (list : Container)
    (name : Option String) : Prop where
  improper : list.handle = Handle.null ∨ name.any hasNul = true →
    ∃ error, ∀ route : Route, route.act c p.kind index list name s = .error error s
  gains : s.Running → s.host.collections.contains list.handle = true → name.any hasNul = false →
    p ≠ .collection list.handle →
    ∃ id v, c.valueAs? p.kind index = some v ∧ ∀ route : Route, ∃ t,
      route.act c p.kind index list name s = .ok () t ∧
        s.Gains t list.handle id (name, p.kind, .ok v)
  detached : s.attached = false → list.handle ≠ Handle.null → name.any hasNul = false →
    ∀ route : Route, route.act c p.kind index list name s = .ok () s

/-- **All routes into a list build the same node**, for whatever a slot holds: numbers that are no truth
values, missing texts and texts that are no UTF-8 included. -/
theorem routes_agree (argument : c.Argument index p) (s : Session) (list : Container)
    (name : Option String) : RoutesAgree s c index p list name := by
  have act_eq := fun route : Route => route.act_eq argument list name
  constructor
  case improper =>
    intro improper
    obtain ⟨fault, hlabel, -⟩ := insertionLabel_of_improper improper
    refine ⟨s.registry.errorOf fault, fun route => ?_⟩
    rw [act_eq]
    exact Insertion.act_of_improper (route.isErased_item p) (route.consumed_item p) hlabel s
  case gains =>
    intro running live clean apart
    obtain ⟨made, past⟩ := running.hosted
    have proper : list.handle ≠ Handle.null :=
      Nat.pos_iff_ne_zero.mp (past.sound.lt_next (u := .collection) live).1
    refine ⟨s.host.nextId, p.value, argument.valueAs?, fun route => ?_⟩
    have accepted := route.refused_insertion argument proper clean
    have stored : (route.item p).stored ≠ .collection list.handle :=
      fun h => apart (route.stored_item_eq_collection.mp h)
    have gained := running.gains live stored (name.map bytesOf)
    obtain ⟨hkind, hvalue⟩ := route.stored_item_reports p
    rw [map_lossyString_bytesOf, hkind, hvalue] at gained
    refine ⟨_, ?_, gained⟩
    rw [act_eq]
    exact Insertion.act_of_accepted running.attached accepted
  case detached =>
    intro detached proper clean route
    rw [act_eq, Insertion.act_eq_order (route.refused_insertion argument proper clean)]
    simp [Act.order, Act.request, Session.request_of_detached detached]

/-- A call with two arguments, a truth value that is neither zero nor one and a text that is no UTF-8. -/
def oddArguments : Call :=
  ⟨2, [some 0, some 1], [.boolean 7, .text (some [0xFF, 0x61])], none⟩

/-- By each route the truth value becomes a node that is true, and the text one whose faulty byte is
replaced. No route leads into the empty list. -/
theorem routes_agree_oddArguments :
    (∀ route : Route, ∃ t, route.act oddArguments .boolean 0 ⟨.collection, .manual, 1⟩ none stocked =
        .ok () t ∧ t.reported (t.back 1) = (none, .boolean, .ok (.boolean true))) ∧
    (∀ route : Route, ∃ t, route.act oddArguments .text 1 ⟨.collection, .manual, 2⟩ (some "n") stocked =
        .ok () t ∧
      t.reported (t.back 2) = (some "n", .text, .ok (.text (lossyString [0xFF, 0x61])))) ∧
    ∃ error, ∀ route : Route,
      route.act oddArguments .boolean 0 (.empty .collection .manual) none stocked =
        .error error stocked := by
  have boolean : oddArguments.Argument 0 (.boolean 7) := ⟨⟨0, rfl, rfl⟩, nofun⟩
  have text : oddArguments.Argument 1 (.text (some [0xFF, 0x61])) := by
    refine ⟨⟨1, rfl, rfl⟩, fun b hb => ?_⟩
    obtain rfl := Option.some.inj (Payload.text.inj hb)
    decide
  refine ⟨fun route => ?_, fun route => ?_, ?_⟩
  · obtain ⟨id, v, hv, all⟩ := (routes_agree boolean stocked ⟨.collection, .manual, 1⟩ none).gains
      stocked_running (by decide +kernel) rfl nofun
    obtain ⟨t, hact, gained⟩ := all route
    obtain rfl := Option.some.inj (hv.symm.trans boolean.valueAs?)
    exact ⟨t, hact, by rw [gained.back, gained.reported]; rfl⟩
  · obtain ⟨id, v, hv, all⟩ := (routes_agree text stocked ⟨.collection, .manual, 2⟩ (some "n")).gains
      stocked_running (by decide +kernel) (by decide) nofun
    obtain ⟨t, hact, gained⟩ := all route
    obtain rfl := Option.some.inj (hv.symm.trans text.valueAs?)
    exact ⟨t, hact, by rw [gained.back, gained.reported]; rfl⟩
  · exact (routes_agree boolean stocked (.empty .collection .manual) none).improper (.inl rfl)

end Marshal
