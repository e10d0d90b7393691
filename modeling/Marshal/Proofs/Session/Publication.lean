import Mathlib.Algebra.Group.Int.Defs
import Marshal.Proofs.Session.Delivery

/-!
# `Proofs.Session.Publication` — the published table explains every later status

The host gets the table of error kinds once and statuses from then on. What it reads out of the packet
are the kinds themselves, and since numbers and names are never given away again, the entry under a
status stays the right one, however the table has grown when the error behind the status is raised.

## Contents

* `Expr.kinds?` — what the host reads out of the packet;
* `kinds?_expr` — it reads the kinds of the table;
* `InStep.filter_id` — no two kinds share a number;
* `Raises`, `Raises.kind_eq` — the errors of a kind in a table that has grown;
* `publication_explains` — a table that is published, and the statuses after it.
-/

namespace Marshal

/-! ## Reading the table -/

namespace Expr

/-- The kind that a rule from a name to a number and a message stands for. -/
def kind? : Expr → Option ErrorKind
  | .function head [.string name, .function inner [.integer id, .string message]] =>
    if head = "Rule" ∧ inner = "List" then some ⟨id.toInt, name, message⟩ else none
  | _ => none

/-- The kinds that an association of such rules stands for, in order. -/
def kinds? : Expr → Option (List ErrorKind)
  | .function head rules => if head = "Association" then rules.mapM kind? else none
  | _ => none

end Expr

/-- What each rule stands for is read, if each can be. -/
theorem mapM_map_eq_some {α β : Type} {f : α → β} {g : β → Option α} {xs : List α}
    (h : ∀ x ∈ xs, g (f x) = some x) : (xs.map f).mapM g = some xs := by
  induction xs with
  | nil => rfl
  | cons x xs ih =>
    obtain ⟨hfirst, hrest⟩ := List.forall_mem_cons.mp h
    rw [List.map_cons, List.mapM_cons, hfirst, ih hrest]
    rfl

/-- A rule stands for the kind that it was made from, if eight bytes can hold its number. -/
theorem ErrorKind.kind?_rule (kind : ErrorKind) (low : -2 ^ 63 ≤ kind.id) (high : kind.id < 2 ^ 63) :
    kind.rule.kind? = some kind := by
  have hid : (Int64.ofInt kind.id).toInt = kind.id := by
    apply Int64.toInt_ofInt_of_le
    · exact low
    · exact high
  show some (⟨(Int64.ofInt kind.id).toInt, kind.name, kind.message⟩ : ErrorKind) = some kind
  rw [hid]

namespace Registry

variable {r : Registry}

/-- The numbers of the kinds lie below the first one, and not further than there are kinds. -/
theorem InStep.id_bounds (h : r.InStep) {kind : ErrorKind} (mem : kind ∈ r.kinds) :
    baseId - r.size < kind.id ∧ kind.id ≤ baseId := by
  obtain ⟨place, hlt, -, hid⟩ := h.mem_iff.mp mem
  omega

/-- **The table is read out of its expression**, every kind with its number and in order. -/
theorem InStep.kinds?_expr (h : r.InStep) (few : r.size < 2147483648) :
    r.expr.kinds? = some r.kinds := by
  show (r.kinds.map ErrorKind.rule).mapM Expr.kind? = some r.kinds
  apply mapM_map_eq_some
  intro kind hkind
  obtain ⟨hlow, hhigh⟩ := h.id_bounds hkind
  have hbase : baseId = 7 := rfl
  apply kind.kind?_rule
  · omega
  · omega

/-- No kind stands in the table twice, since its place gives away its number. -/
theorem InStep.nodup (h : r.InStep) : r.kinds.Nodup := by
  rw [List.nodup_iff_getElem?_ne_getElem?]
  intro i j hlt hj heq
  obtain ⟨kind, hkind⟩ : ∃ kind, r.kinds[j]? = some kind := ⟨_, List.getElem?_eq_getElem hj⟩
  have hi := h.number i kind (heq.trans hkind)
  have hj := h.number j kind hkind
  omega

theorem InStep.id_unique (h : r.InStep) {kind other : ErrorKind} (mem : kind ∈ r.kinds)
    (mem' : other ∈ r.kinds) (hid : other.id = kind.id) : other = kind := by
  obtain ⟨place, -, hkind, hplace⟩ := h.mem_iff.mp mem
  obtain ⟨place', -, hother, hplace'⟩ := h.mem_iff.mp mem'
  obtain rfl : place' = place := by omega
  exact Option.some.inj (hother.symm.trans hkind)

/-- **One kind has the number of a kind.** -/
theorem InStep.filter_id (h : r.InStep) {kind : ErrorKind} (mem : kind ∈ r.kinds) :
    r.kinds.filter (·.id = kind.id) = [kind] := by
  have hsame : r.kinds.filter (·.id = kind.id) = r.kinds.filter (· = kind) := by
    apply List.filter_congr
    intro other hother
    have : other.id = kind.id ↔ other = kind := by
      constructor
      · exact h.id_unique mem hother
      · rintro rfl
        rfl
    simp only [this]
  rw [hsame, List.filter_eq, List.count_eq_one_of_mem h.nodup mem]
  rfl

/-! ## Errors of a kind -/

/-- An error is raised from a table by the name or by the number of a kind. What is added to it
afterwards, details and parameters, is of no concern. -/
inductive Raises (r : Registry) (kind : ErrorKind) (e : Raised) : Prop
  | byName (h : e.kind = (r.errorOfName kind.name).kind)
  | byId (h : e.kind = (r.errorOfId kind.id).kind)

/-- **The errors of a kind have that kind**, in its table and in every table that has grown from it. -/
theorem Raises.kind_eq {later : Registry} {kind : ErrorKind} {e : Raised} (raised : later.Raises kind e)
    (h : later.InStep) (few : later.size < 2147483648) (mem : kind ∈ later.kinds) :
    e.kind = kind := by
  cases raised with
  | byName hraised =>
    have hfound : later.kindOfName kind.name = .ok kind := by
      rw [kindOfName_eq_ok_iff, h.kindNamed?_eq_some_iff]
      exact ⟨mem, rfl⟩
    rw [hraised, errorOfName, hfound]
    rfl
  | byId hraised =>
    have hfound : later.kindOfId kind.id = .ok kind := by
      rw [kindOfId_eq_ok_iff, h.kindWithId?_eq_some_iff few]
      exact ⟨mem, rfl⟩
    rw [hraised, errorOfId, hfound]
    rfl

end Registry

/-! ## Publication -/

/-- **The published table explains every later status.** A table of kinds, as far as 31 bits can count
its kinds and eight bytes their texts, is sent over a link that works and on which whatever waits can
be read. When the link is processed, one packet more stands behind those that waited, and the host
reads the kinds out of it, in order and with their numbers and messages. Later, after any registrations,
an error is raised by the name or the number of one of these kinds, and ends a call in any session. The
one kind that the host has read under the status of that call is the kind of the error. -/
theorem publication_explains {s : Session} {link : Handle} {l : Link} {es : List Expr}
    (running : s.Running) (live : s.host.links.get? link = some l) (unbroken : l.broken = false)
    (readable : l.pending.map Expr.decode = es.map .ok) (few : s.registry.size < 2147483648)
    (storable : s.registry.expr.Storable) :
    ∃ t u l' packet kinds, Act.publishRegistry link s = .ok () t ∧
      Act.evaluateLink link t = .ok () u ∧ u.host.links.get? link = some l' ∧ l'.pending = [] ∧
      l'.processed = l.processed ++ es ++ [packet] ∧
      packet.kinds? = some kinds ∧ kinds = s.registry.kinds ∧
      ∀ kind ∈ kinds, ∀ more, (s.registry.run more).size < 2147483648 →
        ∀ e, (s.registry.run more).Raises kind e →
          ∀ (body : Act Unit) (before after : Session), body before = .error e after →
            kinds.filter (·.id = (body.atBoundary before).1) = [e.kind] ∧ e.kind = kind := by
  obtain ⟨calls, hcalls⟩ := running.registered
  have hproper : link ≠ Handle.null := running.link_ne_null live
  obtain ⟨t, u, hsent, hdone, hlink⟩ :=
    Act.evaluateLink_sendExpr running.attached hproper live unbroken readable storable
  obtain ⟨hpending, hprocessed⟩ :=
    Link.foldl_evaluate_eq { l with pending := [] } (es ++ [s.registry.expr])
  have hinStep : s.registry.InStep := by
    rw [hcalls]
    exact (Registry.Grown.run calls).inStep
  refine ⟨t, u, _, s.registry.expr, s.registry.kinds, ?_, hdone, hlink, hpending, ?_,
    hinStep.kinds?_expr few, rfl, ?_⟩
  · rw [publishRegistry_eq]
    exact hsent
  · rw [hprocessed, List.append_assoc]
  · intro kind hkind more fewer e raised body before after hfailed
    -- the table from which the error is raised has grown from the published one
    have hlater : (s.registry.run more).InStep := by
      rw [hcalls, ← Registry.run_append]
      exact (Registry.Grown.run (calls ++ more)).inStep
    have hmem : kind ∈ (s.registry.run more).kinds :=
      (s.registry.kinds_prefix_run more).subset hkind
    have hsame : e.kind = kind := raised.kind_eq hlater fewer hmem
    have hstatus : (body.atBoundary before).1 = e.kind.id := by
      rw [Act.atBoundary, hfailed]
      exact congrArg Prod.fst (after.settle_raised e)
    refine ⟨?_, hsame⟩
    rw [hstatus, hsame]
    exact hinStep.filter_id hkind

/-- A session with a kind of its own, and with a link on which a packet waits. -/
def publishing : Session :=
  { registry := Registry.seeded.run [.single "Stalled" "Too slow."]
    host := (({} : Host).newLink.2.enqueuePacket 1 (Expr.integer 8).encode).2 }

/-- Another kind, and a name that is taken. -/
def laterCalls : List Registration :=
  [.single "Drained" "Nothing left.", .single "Stalled" "Too fast."]

/-- A call that fails with the error of a number. -/
def failsById (id : Int) : Act Unit :=
  fun s => .error ((s.registry.errorOfId id).withDetail "after a minute") s

/-- The host finds the kind under its number, which is raised when the table has grown by another
kind and has refused a third one. -/
theorem publication_explains_stalled :
    ∃ t u l' packet kinds, Act.publishRegistry 1 publishing = .ok () t ∧
      Act.evaluateLink 1 t = .ok () u ∧ u.host.links.get? 1 = some l' ∧
      l'.processed = [.integer 8, packet] ∧ packet.kinds? = some kinds ∧ kinds.length = 47 ∧
      kinds.filter (·.id = ((failsById (-39)).atBoundary
        { registry := publishing.registry.run laterCalls }).1) = [⟨-39, "Stalled", "Too slow."⟩] := by
  have hosted : Host.Evolves {} publishing.host :=
    (Host.Evolves.single (.link _)).trans (.enqueuePacket ..)
  have running : publishing.Running := by
    obtain ⟨made, changes⟩ := hosted
    exact ⟨rfl, ⟨_, rfl⟩, ⟨_, Host.History.start.changes changes⟩⟩
  have hlive : publishing.host.links.get? 1 = some { pending := [(Expr.integer 8).encode] } := rfl
  have hreadable : [(Expr.integer 8).encode].map Expr.decode = [Expr.integer 8].map .ok :=
    congrArg (fun e => [e]) (Expr.decode_encode (.integer 8))
  have hfew : publishing.registry.size < 2147483648 := by decide +kernel
  have hstorable : publishing.registry.expr.Storable :=
    Registry.storable_expr (by decide +kernel) (by decide +kernel)
  obtain ⟨t, u, l', packet, kinds, hsent, hdone, hlink, -, hprocessed, hread, hkinds, hstatus⟩ :=
    publication_explains running hlive rfl hreadable hfew hstorable
  have hmem : ⟨-39, "Stalled", "Too slow."⟩ ∈ publishing.registry.kinds := by decide +kernel
  have hcount : publishing.registry.kinds.length = 47 := by decide +kernel
  obtain ⟨hfound, hkind⟩ := hstatus ⟨-39, "Stalled", "Too slow."⟩ (hkinds ▸ hmem)
    laterCalls (by decide +kernel)
    (((publishing.registry.run laterCalls).errorOfId (-39)).withDetail "after a minute") (.byId rfl)
    (failsById (-39)) { registry := publishing.registry.run laterCalls } _ rfl
  refine ⟨t, u, l', packet, kinds, hsent, hdone, hlink, hprocessed, hread, ?_, ?_⟩
  · rw [hkinds]
    exact hcount
  · rw [hfound, hkind]

end Marshal
