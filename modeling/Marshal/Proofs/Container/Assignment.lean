import Marshal.Proofs.Collection.Copies
import Marshal.Proofs.Collection.References
import Marshal.Proofs.Host.Rollback

/-!
# `Proofs.Container.Assignment` — assignment copies before it releases

Assigning to a container that the library owns copies the source, releases the old contents, and takes
the copy over. The source may be the same handle, or a view of something inside the old contents: it is
only looked at while everything is still there. What the release then takes out is what the old contents
led to before. It cannot take anything from the copy, which has new numbers, unless the old contents
hold such a number already: a handle that names nothing when the assignment begins, and that the copying
gives out.

## Contents

* `leads_iff_of_settled` — copying does not change what settled contents lead to;
* `Host.Replaced`, `Host.replaced` — a host in which old contents have been freed behind a copy;
* `Container.replaceBy_eq` — assignment as an equation;
* `Session.Assigned` — what has become of a session in an assignment;
* `assignment_copies_first` — assignment under any aliasing;
* `assignment_loses_copy` — old contents that hold the number of the copy.
-/

namespace Marshal

open Marshal.Host Marshal.Text

namespace Host

variable {made : List (Handle × Use)} {w w' : Host} {p : Payload} {roots : List Payload}

/-! ## What old contents lead to -/

/-- **Copying does not add to what settled contents own.** A way that goes through something that has
    been made on the way of copying would have to go through one of its numbers. -/
theorem owned_iff_of_settled (bounded : Bounded w) (bounded' : Bounded w')
    (confined : Confined w.nextId w w') (settled : Settled w.collections w.nextId w'.nextId p)
    {q : Payload} : Owned w'.collections [p] q ↔ Owned w.collections [p] q := by
  constructor
  · intro h
    induction h with
    | here mem => exact .here mem
    | @inside c nodes n _ found mem ih =>
      rcases settled _ .collection c ih rfl with hold | hlate
      · exact .inside ih ((confined.collections c hold).symm.trans found) mem
      · exact absurd (bounded'.collection_lt found) (Nat.not_lt.mpr hlate)
  · intro h
    induction h with
    | here mem => exact .here mem
    | @inside c nodes n _ found mem ih =>
      exact .inside ih ((confined.collections c (bounded.collection_lt found)).trans found) mem

/-- It does not change what they lead to. -/
theorem leads_iff_of_settled (bounded : Bounded w) (bounded' : Bounded w')
    (confined : Confined w.nextId w w') (settled : Settled w.collections w.nextId w'.nextId p)
    {u : Use} {h : Handle} : Leads w'.collections [p] u h ↔ Leads w.collections [p] u h := by
  have owned {q : Payload} := owned_iff_of_settled bounded bounded' confined settled (q := q)
  cases u with
  | array => exact or_congr owned owned
  | collection => exact owned
  | node =>
    constructor
    · rintro ⟨c, nodes, hc, found, mem⟩
      have hc' := owned.mp hc
      rcases settled _ .collection c hc' rfl with hold | hlate
      · exact ⟨c, nodes, hc', (confined.collections c hold).symm.trans found, mem⟩
      · exact absurd (bounded'.collection_lt found) (Nat.not_lt.mpr hlate)
    · rintro ⟨c, nodes, hc, found, mem⟩
      exact ⟨c, nodes, owned.mpr hc,
        (confined.collections c (bounded.collection_lt found)).trans found, mem⟩
  | link => exact Iff.rfl

/-- Settled contents lead to nothing that is made on the way of copying. -/
theorem lt_of_leads_settled (past : History made w) (bounded' : Bounded w')
    (settled : Settled w.collections w.nextId w'.nextId p) {u : Use} {h : Handle}
    (leads : Leads w.collections [p] u h) (named : w'.names u h = true) : h < w.nextId := by
  have early {q : Payload} (hq : Owned w.collections [p] q) (stored : q.stored = some (u, h)) :
      h < w.nextId :=
    (settled q u h hq stored).resolve_right fun hlate =>
      absurd (bounded' u h named) (Nat.not_lt.mpr hlate)
  cases u with
  | array => exact leads.elim (early · rfl) (early · rfl)
  | collection => exact early leads rfl
  | node => exact past.sound.is_bounded .node h (names_of_ownsNode past leads)
  | link => exact leads.elim

/-! ## Freeing behind a copy -/

/-- What contents do not lead to stays when they are freed. -/
theorem freeAll_of_not_leads (w : Host) (work : List Payload) (h : Handle) :
    (¬ Leads w.collections work .array h →
      (w.freeAll work).arrays.get? h = w.arrays.get? h) ∧
    (¬ Leads w.collections work .collection h →
      (w.freeAll work).collections.get? h = w.collections.get? h) ∧
    (¬ Leads w.collections work .node h →
      (w.freeAll work).places.get? h = w.places.get? h) ∧
    (¬ Leads w.collections work .array h → ¬ Leads w.collections work .collection h →
      (w.freeAll work).releasesOf h = w.releasesOf h) := by
  classical
  exact ⟨fun hnot => (get?_arrays_freeAll ..).trans (if_neg hnot),
    fun hnot => (get?_collections_freeAll ..).trans (if_neg hnot),
    fun hnot => (get?_places_freeAll ..).trans (if_neg hnot), releasesOf_freeAll_of_not_owned⟩

/-- **Old contents have been freed and replaced.** What they led to is gone, each array and collection
    with one free counted. What else there was is as it was, and whatever is there under a new number
    hangs on the new contents. -/
structure Replaced (w t : Host) (p : Payload) (roots : List Payload) : Prop where
  gone : ∀ u h, Leads w.collections [p] u h → t.names u h = false
  freed_once : ∀ u h, u = .array ∨ u = .collection → Leads w.collections [p] u h →
    w.names u h = true → w.freesOf h = 0 ∧ t.freesOf h = 1
  arrays : ∀ h < w.nextId, ¬ Leads w.collections [p] .array h → t.arrays.get? h = w.arrays.get? h
  collections : ∀ c < w.nextId, ¬ Leads w.collections [p] .collection c →
    t.collections.get? c = w.collections.get? c
  places : ∀ id < w.nextId, ¬ Leads w.collections [p] .node id →
    t.places.get? id = w.places.get? id
  releases : ∀ h < w.nextId, ¬ Leads w.collections [p] .array h →
    ¬ Leads w.collections [p] .collection h → t.releasesOf h = w.releasesOf h
  links : t.links = w.links
  made : ∀ u h, u ≠ .link → w.nextId ≤ h → t.names u h = true → Leads t.collections roots u h

theorem replaced (past : History made w) (hev : Evolves w w') (confined : Confined w.nextId w w')
    (hangs : Hangs w.nextId roots w') (settled : Settled w.collections w.nextId w'.nextId p) :
    Replaced w (w'.freeAll [p]) p roots := by
  have bounded := past.sound.is_bounded
  have bounded' := hev.bounded bounded
  have leads {u : Use} {h : Handle} : Leads w'.collections [p] u h ↔ Leads w.collections [p] u h :=
    leads_iff_of_settled bounded bounded' confined settled
  have gone : ∀ u h, Leads w.collections [p] u h → (w'.freeAll [p]).names u h = false := by
    intro u h hlead
    rw [← Bool.not_eq_true, names_freeAll]
    exact fun hn => hn.2 (leads.mpr hlead)
  constructor
  case gone => exact gone
  case freed_once =>
    intro u h owner hlead hnamed
    obtain ⟨more, changes⟩ := hev.trans (.freeAll w' [p])
    have hmade : (h, u) ∈ made := past.sound.named u h hnamed
    have before := (past.sound.frees_owned hmade owner).resolve_right fun h' => by
      rw [hnamed] at h'
      cases h'.1
    have after := ((past.changes changes).sound.frees_owned (List.mem_append_left more hmade)
      owner).resolve_left fun h' => by
        rw [gone u h hlead] at h'
        cases h'.1
    exact ⟨before.2, after.2⟩
  case arrays =>
    intro h hlt hnot
    exact ((freeAll_of_not_leads w' [p] h).1 (mt leads.mp hnot)).trans (confined.arrays h hlt)
  case collections =>
    intro c hlt hnot
    exact ((freeAll_of_not_leads w' [p] c).2.1 (mt leads.mp hnot)).trans
      (confined.collections c hlt)
  case places =>
    intro id hlt hnot
    exact ((freeAll_of_not_leads w' [p] id).2.2.1 (mt leads.mp hnot)).trans
      (confined.places id hlt)
  case releases =>
    intro h hlt hnot hnot'
    exact ((freeAll_of_not_leads w' [p] h).2.2.2 (mt leads.mp hnot) (mt leads.mp hnot')).trans
      (confined.releases h hlt)
  case links =>
    obtain ⟨-, hlinks, -⟩ := freeAll_frame w' [p]
    exact hlinks.trans confined.links
  case made =>
    have behind : Hangs w.nextId ([p] ++ roots) w' := hangs.cons p
    exact behind.freeAll.leads

/-- **The copy outlives what is freed behind it.** -/
theorem Copied.freeAll {q q' : Payload} (past : History made w) (hev : Evolves w w')
    (confined : Confined w.nextId w w') (settled : Settled w.collections w.nextId w'.nextId p)
    (copied : Copied w w' q q') (new : New w.nextId q') : Copied w (w'.freeAll [p]) q q' := by
  have bounded := past.sound.is_bounded
  have bounded' := hev.bounded bounded
  have spared {u : Use} {h : Handle} (hnew : w.nextId ≤ h) (named : w'.names u h = true) :
      ¬ Leads w'.collections [p] u h := fun hlead =>
    absurd (lt_of_leads_settled past bounded' settled
      ((leads_iff_of_settled bounded bounded' confined settled).mp hlead) named)
      (Nat.not_lt.mpr hnew)
  refine copied.transport confined.closed new (fun k a hnew live => ?_) fun c nodes hnew live => ?_
  · exact ((freeAll_of_not_leads w' [p] k).1 (spared hnew (Table.contains_of_get? live))).trans live
  · exact ((freeAll_of_not_leads w' [p] c).2.1 (spared hnew (Table.contains_of_get? live))).trans live

/-- What is owned when something has been freed was owned before. -/
theorem owned_of_freeAll {work : List Payload} {q : Payload}
    (h : Owned (w.freeAll work).collections roots q) : Owned w.collections roots q := by
  classical
  refine h.grow (fun c nodes found => ⟨nodes, ?_, fun _ hn => hn⟩) fun q hq => .here hq
  rw [get?_collections_freeAll] at found
  split at found
  · cases found
  · exact found

/-! ## What copying and freeing never touch -/

/-- What the host's own side has set. -/
def settings (w : Host) : Handle × Bool × List String := (w.currentLink, w.abortRequested, w.denied)

theorem settings_freeAll (w : Host) (work : List Payload) :
    (w.freeAll work).settings = w.settings := by
  obtain ⟨-, -, hlink, habort, hdenied⟩ := freeAll_frame w work
  rw [settings, hlink, habort, hdenied, settings]

theorem settings_addArray? (w : Host) (d : Option Dense) :
    (w.addArray? d).2.settings = w.settings := by
  cases d <;> rfl

theorem settings_appendNode (w : Host) (c : Handle) (name : Option Bytes) (p : Payload) :
    (w.appendNode c name p).settings = w.settings := by
  unfold appendNode
  split <;> rfl

section Copying

variable {nested : Handle → Host → Option Handle × Host}

theorem settings_copyPayload (hnested : ∀ c w, (nested c w).2.settings = w.settings) (w : Host)
    (p : Payload) : (copyPayload nested w p).2.settings = w.settings := by
  cases p with
  | tensor h => exact settings_addArray? w _
  | numericArray h => exact settings_addArray? w _
  | collection c => exact hnested c w
  | _ => rfl

theorem settings_copyNodes (hnested : ∀ c w, (nested c w).2.settings = w.settings) (copy : Handle)
    (w : Host) (nodes : List Node) : (copyNodes nested copy w nodes).2.settings = w.settings := by
  induction nodes generalizing w with
  | nil => rfl
  | cons n rest ih =>
    have hcopied := settings_copyPayload hnested w n.payload
    rw [copyNodes]
    rcases hp : copyPayload nested w n.payload with ⟨_ | p, w₁⟩
    · rw [hp] at hcopied
      exact (settings_freeAll w₁ _).trans hcopied
    · rw [hp] at hcopied
      exact (ih _).trans ((settings_appendNode w₁ copy n.name p).trans hcopied)

theorem settings_copyCollection (c : Handle) (w : Host) :
    (w.copyCollection c).2.settings = w.settings := by
  have rule : CopyRule fun _ w r => r.2.settings = w.settings :=
    ⟨fun _ _ => rfl, fun hnested _ _ _ _ => settings_copyNodes hnested ..⟩
  exact rule.copyCollection w c

end Copying

/-- Freeing null frees nothing. -/
theorem freeAll_null (past : ∃ made, History made w) (kind : ContainerKind) :
    w.freeAll [.ofHandle kind.kind Handle.null] = w := by
  obtain ⟨harrays, hcollections, -⟩ := untaken_null past
  have hfree : w.freeArray Handle.null = w := if_neg (by rw [Table.contains, harrays]; decide)
  cases kind with
  | tensor => simp [ContainerKind.kind, Payload.ofHandle, Host.freeAll, hfree]
  | numericArray => simp [ContainerKind.kind, Payload.ofHandle, Host.freeAll, hfree]
  | collection =>
    show w.freeAll [.collection Handle.null] = w
    rw [Host.freeAll]
    split
    · rw [Host.freeAll]
    · next found =>
      rw [hcollections] at found
      cases found

end Host

/-! ## Assignment as an equation -/

namespace Container

variable {s t : Session} {a b c : Container}

/-- A copy is made by the host. -/
theorem session_of_copy (h : b.copy s = .ok c t) :
    ∃ requests, t = { s with host := s.host.run requests } := by
  obtain ⟨requests, hsession, -⟩ := Act.Served.copy b s
  rw [outcome, h] at hsession
  exact ⟨requests, hsession⟩

/-- Assignment makes the copy that there would be of the source, and goes on from there. -/
theorem replaceBy_of_copy (same : b.kind = a.kind) :
    a.replaceBy b s =
      match b.copy s with
      | .ok c t => (a.clear >>= fun emptied => pure { emptied with handle := c.handle }) t
      | .error e t => .error e t := by
  have hcopy : b.copy s =
      (Act.copyHandle a.kind b.handle >>= fun k => pure ⟨a.kind, .manual, k⟩) s := by
    rw [← same]
    rfl
  have hassign : a.replaceBy b s = (Act.copyHandle a.kind b.handle >>= fun k =>
      a.clear >>= fun emptied => pure { emptied with handle := k }) s := rfl
  rw [hcopy, hassign]
  simp only [bind, EStateM.bind, pure, EStateM.pure]
  cases Act.copyHandle a.kind b.handle s <;> rfl

/-- **Assignment as an equation**: the old contents are freed behind the copy. -/
theorem replaceBy_eq (running : s.Running) (manual : a.mode = .manual) (same : b.kind = a.kind) :
    a.replaceBy b s =
      match b.copy s with
      | .ok c t => .ok ⟨a.kind, .manual, c.handle⟩ { t with host := t.host.freeAll [a.payload] }
      | .error e t => .error e t := by
  obtain ⟨kind, mode, h⟩ := a
  obtain rfl : mode = .manual := manual
  rw [replaceBy_of_copy same]
  cases hcopy : b.copy s with
  | error e t => rfl
  | ok c t =>
    obtain ⟨requests, rfl⟩ := session_of_copy hcopy
    have later : s.Later { s with host := s.host.run requests } := ⟨requests, rfl⟩
    have running' := later.running running
    obtain ⟨made, past⟩ := running'.hosted
    have hfreed : (Item.container kind h).discarded (s.host.run requests) =
        (s.host.run requests).freeAll [.ofHandle kind.kind h] := by
      show (if h = Handle.null then _ else _) = _
      split
      · next hnull =>
        rw [hnull]
        exact (freeAll_null ⟨made, past⟩ kind).symm
      · rfl
    show EStateM.bind (EStateM.bind (Container.release ⟨kind, .manual, h⟩) _) _ _ = _
    simp only [EStateM.bind, release_of_attached running'.attached, hfreed]
    rfl

/-- Assigning a list that can be copied. -/
theorem replaceBy_of_copyCollection (running : s.Running) (h : Handle) (mode : Passing)
    {c k : Handle} (hnull : c ≠ Handle.null) (hcopy : (s.host.copyCollection c).1 = some k) :
    Container.replaceBy ⟨.collection, .manual, h⟩ ⟨.collection, mode, c⟩ s =
      .ok ⟨.collection, .manual, k⟩
        { s with host := (s.host.copyCollection c).2.freeAll [.collection h] } := by
  have assigned := replaceBy_eq (a := ⟨.collection, .manual, h⟩) (b := ⟨.collection, mode, c⟩)
    running rfl rfl
  rw [copy_of_copyCollection s mode running.attached hnull hcopy] at assigned
  exact assigned

/-- A copy has the kind of its source. -/
theorem kind_of_copy (h : b.copy s = .ok c t) : c.kind = b.kind := by
  have hbind : b.copy s = EStateM.bind (Act.copyHandle b.kind b.handle)
      (fun k => pure ⟨b.kind, .manual, k⟩) s := rfl
  rw [hbind] at h
  unfold EStateM.bind at h
  cases hmade : Act.copyHandle b.kind b.handle s with
  | ok k u =>
    rw [hmade] at h
    cases h
    rfl
  | error e u =>
    rw [hmade] at h
    cases h

/-- The contents of a container are stored under its handle. -/
theorem stored_payload (c : Container) : ∃ v, c.payload.stored = some (v, c.handle) := by
  obtain ⟨kind, mode, h⟩ := c
  cases kind with
  | tensor => exact ⟨.array, rfl⟩
  | numericArray => exact ⟨.array, rfl⟩
  | collection => exact ⟨.collection, rfl⟩

end Container

/-! ## Assignment under any aliasing -/

/-- **What has become of a session in an assignment** of `b` to `a`, which has left `a'`: the receiver
    is the library's, of the same kind, and empty exactly if the source is; otherwise its handle and all
    that it leads to is new and live. It reads as the source has read. What the receiver led to has been
    freed, each thing once, and everything else is as it was. -/
structure Session.Assigned (s t : Session) (a b a' : Container) : Prop where
  mode : a'.mode = .manual
  kind : a'.kind = a.kind
  empty : b.handle = Handle.null → a'.handle = Handle.null
  fresh : b.handle ≠ Handle.null → s.host.nextId ≤ a'.handle ∧
    ∀ q, Owned t.host.collections [a'.payload] q → Live t.host q ∧ New s.host.nextId q
  reads : s.ReadsSame t b.payload.value a'.payload.value
  replaced : Replaced s.host t.host a.payload [a'.payload]
  settings : t.host.settings = s.host.settings
  rest : t = { s with host := t.host }

namespace Session

variable {s u : Session} {made : List (Handle × Use)} {a b c : Container}

/-- Assigning an empty container only frees the old contents. -/
theorem assigned_empty (past : History made s.host) (same : b.kind = a.kind)
    (hnull : b.handle = Handle.null)
    (settled : Settled s.host.collections s.host.nextId s.host.nextId a.payload) :
    s.Assigned { s with host := s.host.freeAll [a.payload] } a b ⟨a.kind, .manual, Handle.null⟩ := by
  have bounded := past.sound.is_bounded
  have hb : b.payload = .ofHandle a.kind.kind Handle.null := by
    rw [Container.payload, hnull, same]
  constructor
  case mode => rfl
  case kind => rfl
  case empty => exact fun _ => rfl
  case fresh => exact fun hproper => absurd hnull hproper
  case reads =>
    rw [hb]
    exact .null a.kind
  case replaced =>
    exact replaced past (.refl _) (.refl (Nat.le_refl _) bounded.closed)
      ((Hangs.start bounded).cons _) settled
  case settings => exact settings_freeAll s.host _
  case rest => rfl

/-- Assigning anything else frees the old contents behind the copy, which outlives them. -/
theorem assigned_copy (attached : s.attached = true) (past : History made s.host)
    (hkind : c.kind = a.kind)
    (hcopy : copyPayload (fun c w => w.copyCollection c) s.host b.payload =
      (some c.payload, u.host))
    (hu : u = { s with host := u.host })
    (settled : Settled s.host.collections s.host.nextId u.host.nextId a.payload)
    (settled' : Settled s.host.collections s.host.nextId u.host.nextId b.payload) :
    s.Assigned { u with host := u.host.freeAll [a.payload] } a b ⟨a.kind, .manual, c.handle⟩ := by
  have bounded := past.sound.is_bounded
  have start : Confined s.host.nextId s.host s.host := .refl (Nat.le_refl _) bounded.closed
  have resembles := fun c w => (Resembles.copyRule s.host u.host.nextId).copyCollection w c
  have hev := copyPayload_evolves (fun c w => (resembles c w).toFramed) hcopy
  have copied := copyPayload_copied resembles bounded start settled' hcopy (Nat.le_refl _)
  obtain ⟨confined, news⟩ := start.copyPayload (fun c w hw => hw.copyCollection c) b.payload
  have hangs := (Hangs.start bounded).copyPayload
    (fun c w => HangsOn.copyRule.copyCollection w c) b.payload
  have settings := settings_copyPayload settings_copyCollection s.host b.payload
  rw [hcopy] at confined news hangs settings
  have new : New s.host.nextId c.payload := news _ rfl
  have outlives := copied.freeAll past hev confined settled new
  have hpayload : (⟨a.kind, .manual, c.handle⟩ : Container).payload = c.payload := by
    rw [Container.payload, Container.payload, hkind]
  obtain ⟨_, past'⟩ := (hev.trans (.freeAll u.host [a.payload])).history ⟨made, past⟩
  constructor
  case mode => rfl
  case kind => rfl
  case empty =>
    -- null names nothing, so there would be no copy of it
    intro hnull
    obtain ⟨v, stored⟩ := b.stored_payload
    have hnamed := copied.live _ owned_self v b.handle stored
    rw [hnull] at hnamed
    exact absurd (past.sound.lt_next hnamed).1 (Nat.lt_irrefl 0)
  case fresh =>
    intro _
    obtain ⟨v, stored⟩ := c.stored_payload
    refine ⟨new v c.handle stored, fun q hq => ?_⟩
    rw [hpayload] at hq
    refine ⟨outlives.copy_live q hq, Confined.new_of_owned confined.closed ?_ (owned_of_freeAll hq)⟩
    intro r hr
    rw [List.mem_singleton.mp hr]
    exact new
  case reads =>
    rw [hpayload]
    have attached' : ({ u with host := u.host.freeAll [a.payload] } : Session).attached = true := by
      rw [hu]
      exact attached
    exact readsSame_of_copied attached attached' past.sound past'.sound outlives
  case replaced =>
    rw [hpayload]
    exact replaced past hev confined hangs settled
  case settings => exact (settings_freeAll u.host _).trans settings
  case rest => rw [hu]

end Session

/-- **Assignment copies before it releases**, under any aliasing. In a running session, take a container
    that the library owns and a container of the same kind in any mode, empty or not, with the same
    handle or with one from inside the old contents. Let neither lead to an array or a collection with a
    number that the copying gives out. If the assignment succeeds, then the receiver has a copy of its
    own, which reads as the source has read before; the old contents and all that they led to have been
    freed, each once; and nothing else has changed. -/
theorem assignment_copies_first {s t : Session} (running : s.Running) {a b a' : Container}
    (manual : a.mode = .manual) (same : b.kind = a.kind) (assigned : a.replaceBy b s = .ok a' t)
    (settled : Settled s.host.collections s.host.nextId t.host.nextId a.payload)
    (settled' : Settled s.host.collections s.host.nextId t.host.nextId b.payload) :
    s.Assigned t a b a' := by
  obtain ⟨made, past⟩ := running.hosted
  rw [Container.replaceBy_eq running manual same] at assigned
  cases hcopy : b.copy s with
  | error e u =>
    rw [hcopy] at assigned
    cases assigned
  | ok c u =>
    rw [hcopy] at assigned
    cases assigned
    have hnext : (u.host.freeAll [a.payload]).nextId = u.host.nextId := (freeAll_frame _ _).1
    rw [hnext] at settled settled'
    rcases (Container.copied_of_copy hcopy).2 with ⟨hnull, rfl, rfl⟩ | hcopied
    · exact Session.assigned_empty past same hnull settled
    · obtain ⟨requests, hu⟩ := Container.session_of_copy hcopy
      have hhost : u = { s with host := u.host } := by rw [hu]
      have hkind : c.kind = a.kind := (Container.kind_of_copy hcopy).trans same
      exact Session.assigned_copy running.attached past hkind hcopied hhost settled settled'

/-- A list in a list. -/
def nestedLists : Session where
  host := Host.run {} [.newCollection, .newCollection, .addNode 2 none (.integer 7),
    .addNode 1 none (.collection 2)]

/-- The inner list is assigned to the outer one, and is copied before it goes with it. -/
theorem assignment_copies_first_nestedLists : ∃ t,
    Container.replaceBy ⟨.collection, .manual, 1⟩ ⟨.collection, .automatic, 2⟩ nestedLists =
      .ok ⟨.collection, .manual, 5⟩ t ∧
    nestedLists.Assigned t ⟨.collection, .manual, 1⟩ ⟨.collection, .automatic, 2⟩
      ⟨.collection, .manual, 5⟩ := by
  have running : nestedLists.Running := .of_requests [.newCollection, .newCollection,
    .addNode 2 none (.integer 7), .addNode 1 none (.collection 2)]
  have hcopy : (nestedLists.host.copyCollection 2).1 = some 5 := by decide
  have assigned := Container.replaceBy_of_copyCollection running 1 .automatic (by decide) hcopy
  exact ⟨_, assigned, assignment_copies_first running rfl rfl assigned
    (settled_of_past (by decide) (by decide)) (settled_of_past (by decide) (by decide))⟩

/-! ## Where an assignment leaves something else -/

/-- A list with a number, and another one that holds the number which a copy of the first one is going
    to have. -/
def holdsNext : Session where
  host := Host.run {} [.newCollection, .addNode 1 none (.integer 7), .newCollection,
    .addNode 3 none (.collection 5)]

/-- The copy is freed with the old contents that hold its number. -/
theorem copyCollection_holdsNext :
    let w := (holdsNext.host.copyCollection 1).2.freeAll [.collection 3]
    w.collections.get? 5 = none ∧ w.freesOf 5 = 1 := by
  have found : (holdsNext.host.copyCollection 1).2.collections.get? 3 =
      some [⟨4, none, .collection 5⟩] := by decide
  have owned : Owned (holdsNext.host.copyCollection 1).2.collections [.collection 3]
      (.collection 5) := .inside owned_self found List.mem_cons_self
  have live : (holdsNext.host.copyCollection 1).2.collections.contains 5 = true := by decide
  have unnamed : ¬ (holdsNext.host.copyCollection 1).2.arrays.contains 5 = true := by decide
  refine ⟨(get?_collections_freeAll ..).trans (if_pos owned), (freesOf_freeAll ..).trans ?_⟩
  rw [if_neg fun h => unnamed h.1, if_pos ⟨live, owned⟩]
  decide

/-- An array in a session whose table has been taken away. -/
def detachedArray : Session where
  host := Host.run {} [.hostArray (.tensor .integer) [2]]
  attached := false

/-- **Where an assignment leaves something else.** A copy is lost if the old contents hold its number:
    it is freed with them, and the receiver is left with nothing. A copy has something that its source has
    not if the source holds a number that the copying gives out. And without a table nothing is freed. -/
theorem assignment_loses_copy :
    (∃ t, (∀ c, Acyclic holdsNext.host.collections c) ∧
      Container.replaceBy ⟨.collection, .manual, 3⟩ ⟨.collection, .automatic, 1⟩ holdsNext =
        .ok ⟨.collection, .manual, 5⟩ t ∧
      holdsNext.collectionLength 1 = 1 ∧ t.collectionLength 5 = 0 ∧ t.host.freesOf 5 = 1) ∧
    (∃ t, (∀ c, Acyclic danglingList.host.collections c) ∧
      Container.replaceBy ⟨.collection, .manual, Handle.null⟩ ⟨.collection, .automatic, 1⟩
        danglingList = .ok ⟨.collection, .manual, 5⟩ t ∧
      (danglingList.nodes 1)[1]? = some 4 ∧ danglingList.nodeValue 4 = .ok (.tensor 6) ∧
      danglingList.length 6 = 0 ∧
      (t.nodes 5)[1]? = some 9 ∧ t.nodeValue 9 = .ok (.tensor 8) ∧ t.length 8 = 2) ∧
    (∃ t, Container.replaceBy ⟨.tensor, .manual, 1⟩ ⟨.tensor, .manual, Handle.null⟩ detachedArray =
        .ok ⟨.tensor, .manual, Handle.null⟩ t ∧
      t.host.names .array 1 = true) := by
  refine ⟨?_, ?_, ⟨_, rfl, by decide⟩⟩
  · have running : holdsNext.Running := .of_requests [.newCollection, .addNode 1 none (.integer 7),
      .newCollection, .addNode 3 none (.collection 5)]
    have hcopy : (holdsNext.host.copyCollection 1).1 = some 5 := by decide
    obtain ⟨gone, counted⟩ := copyCollection_holdsNext
    refine ⟨_, acyclic_of_increasing (by decide),
      Container.replaceBy_of_copyCollection running 3 .automatic (by decide) hcopy, by decide, ?_,
      counted⟩
    show (((((holdsNext.host.copyCollection 1).2.freeAll [.collection 3]).collections.get? 5).map
      fun nodes => (nodes.length : Int)).getD 0) = 0
    rw [gone]
    rfl
  · have running : danglingList.Running := .of_requests [.newCollection,
      .hostArray (.tensor .integer) [2], .addNode 1 none (.tensor 2), .addNode 1 none (.tensor 6)]
    have hcopy : (danglingList.host.copyCollection 1).1 = some 5 := by decide
    have assigned := Container.replaceBy_of_copyCollection running Handle.null .automatic (by decide)
      hcopy
    obtain ⟨made, past⟩ := running.hosted
    obtain ⟨more, past'⟩ := past.answer (.copyCollection 1)
    have hempty : (danglingList.host.copyCollection 1).2.freeAll [.collection Handle.null] =
        (danglingList.host.copyCollection 1).2 := freeAll_null ⟨_, past'⟩ .collection
    rw [hempty] at assigned
    refine ⟨_, acyclic_of_increasing (by decide), assigned, ?_, ?_, ?_, ?_, ?_, ?_⟩
    all_goals decide +kernel

end Marshal
