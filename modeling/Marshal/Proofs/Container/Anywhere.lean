import Marshal.Proofs.Collection.Insertions
import Marshal.Proofs.Container.Program
import Marshal.Proofs.Container.Separation

/-!
# `Proofs.Container.Anywhere` — programs that begin on a host with things on it

A program that begins without variables cannot get at what is on the host already, whatever that is:
other programs' arrays, collections that hold dead handles, even collections that contain themselves.
It goes on as it would on an empty host, except that its handles have other numbers. So what its
variables lead to is well kept wherever it began: everything is live or null, no collection contains
itself, and no handle is one that is still to be given out.

## Contents

* `Program.enter` — a program that begins in a session;
* `Host.Alike.nullOrLive`, `Host.Alike.acyclic`, `Host.Alike.settled` — what twins have in common;
* `Program.Twin`, `Program.Follows`, `Program.Twin.step`, `Program.Twin.run` — programs side by side;
* `Host.WellKept`, `Program.wellKept_run` — what the variables of a program lead to.
-/

namespace Marshal

open Marshal.Host

/-! ## What hosts that are alike have in common -/

namespace Host

variable {R : Renaming} {w w' : Host} {p p' : Payload}

/-- Under one name something is there if it is there under the other. -/
theorem Alike.names_of_stored (m : Alike R w w') {u : Use} {h k : Handle} (stored : p.stored = some (u, h))
    (paired : R h k) (named : w'.names u k = true) : w.names u h = true := by
  have harrays : w.arrays.contains h = w'.arrays.contains k :=
    congrArg Option.isSome (m.arrays h k paired)
  have hcollections : w'.collections.contains k = true → w.collections.contains h = true := by
    intro live
    obtain ⟨nodes, found⟩ := Table.contains_iff.mp live
    obtain ⟨nodes', found', -⟩ := m.flip.nodes paired found
    exact Table.contains_of_get? found'
  cases p with
  | tensor => cases stored; exact harrays.trans named
  | numericArray => cases stored; exact harrays.trans named
  | collection => cases stored; exact hcollections named
  | _ => cases stored

/-- What contents lead to is null or live if that is so under other names. -/
theorem Alike.nullOrLive (m : Alike R w w') (hp : p.Renamed R p') (live : NullOrLive w' p') :
    NullOrLive w p := by
  intro q u h hq stored
  obtain ⟨q', hq', renamed⟩ := m.owned hp hq
  obtain ⟨k, stored', paired⟩ := renamed.of_stored stored
  rcases live q' u k hq' stored' with hnull | hnamed
  · exact .inl ((m.null_iff paired).mpr hnull)
  · exact .inr (m.names_of_stored stored paired hnamed)

/-- A collection does not contain itself if it does not under another name. -/
theorem Alike.acyclic (m : Alike R w w') {c c' : Handle} (paired : R c c')
    (acyclic : Acyclic w'.collections c') : Acyclic w.collections c := by
  intro d nodes hd found hcycle
  -- a way back to a collection has a counterpart, and that ends at the collection's counterpart
  obtain ⟨q', hd', hq'⟩ := m.owned (.collection paired) hd
  cases hq' with
  | plain taken => cases taken
  | @collection _ d' pairedd =>
    obtain ⟨nodes', found', hnodes⟩ := m.nodes pairedd found
    obtain ⟨p, hp, hback⟩ := hcycle.exists_mem
    obtain ⟨n, hn, rfl⟩ := List.mem_map.mp hp
    obtain ⟨n', hn', renamed⟩ := exists_renamed hnodes hn
    obtain ⟨q', hback', hq'⟩ := m.owned renamed.payload hback
    cases hq' with
    | plain taken => cases taken
    | collection paired' =>
      obtain rfl := m.functional d _ _ pairedd paired'
      refine acyclic d' nodes' hd' found' (hback'.mono fun q hq => ?_)
      rw [List.mem_singleton.mp hq]
      exact List.mem_map_of_mem hn'

/-- What has a counterpart has a number that has been given out. -/
theorem Alike.settled (m : Alike R w w') (hp : p.Renamed R p') (stop : Handle) :
    Settled w.collections w.nextId stop p := by
  intro q u h hq stored
  obtain ⟨k, paired⟩ := m.owned_stored hp hq stored
  exact .inl (m.bounded h k paired).1

/-- Any host is like the empty one, under a renaming that speaks of nothing but null. -/
theorem Alike.of_nothing {made : List (Handle × Use)} (past : History made w) :
    Alike (fun h k => h = Handle.null ∧ k = Handle.null) w {} where
  history := ⟨made, past⟩
  history' := ⟨[], .start⟩
  null := ⟨rfl, rfl⟩
  injective := by
    rintro h h' k ⟨rfl, -⟩ ⟨rfl, -⟩
    rfl
  functional := by
    rintro h k k' ⟨-, rfl⟩ ⟨-, rfl⟩
    rfl
  bounded := by
    rintro h k ⟨rfl, rfl⟩
    exact ⟨past.sound.next_pos, Nat.one_pos⟩
  arrays := by
    rintro h k ⟨rfl, rfl⟩
    exact (untaken_null ⟨made, past⟩).1
  collections := by
    rintro h k ⟨rfl, rfl⟩
    rw [(untaken_null ⟨made, past⟩).2.1]
    exact .none
  unlinked := by
    rintro h k ⟨rfl, rfl⟩
    exact ⟨(untaken_null ⟨made, past⟩).2.2, rfl⟩

/-- What a root of a forest leads to is null or live. -/
theorem Forest.nullOrLive {roots : List Payload} (f : Forest w roots) (hp : p ∈ roots) :
    NullOrLive w p := by
  intro q u h hq stored
  by_cases hnull : h = Handle.null
  · exact .inl hnull
  · have howned : Owned w.collections roots q :=
      hq.mono fun r hr => List.mem_singleton.mp hr ▸ hp
    have hstores := f.stores_of_owned howned (Payload.asset_eq_some.mpr ⟨stored, hnull⟩)
    right
    cases q <;> cases stored <;> exact hstores

/-- **What contents lead to is well kept**: it is live or null, no collection contains itself, and
nothing has a number that is still to be given out. -/
structure WellKept (w : Host) (p : Payload) : Prop where
  live : NullOrLive w p
  acyclic : ∀ c, p = .collection c → Acyclic w.collections c
  settled : ∀ stop, Settled w.collections w.nextId stop p

theorem Alike.wellKept (m : Alike R w w') (hp : p.Renamed R p') (kept : WellKept w' p') :
    WellKept w p where
  live := m.nullOrLive hp kept.live
  acyclic c hc := by
    subst hc
    cases hp with
    | plain taken => cases taken
    | collection paired => exact m.acyclic paired (kept.acyclic _ rfl)
  settled := m.settled hp

end Host

/-! ## Programs side by side -/

namespace Program

open Act (Lockstep)

/-- A program that begins in a session, without variables. -/
def enter (s : Session) (call : Call) : Program where
  session := s
  call := call

/-- Two programs are twins under a renaming. -/
structure Twin (R : Renaming) (p p' : Program) : Prop where
  session : p.session.Twin R p'.session
  vars : VarsRenamed R p.vars p'.vars

/-- Two programs have gone on alike. -/
structure Follows (R : Renaming) (p p' : Program) (R₁ : Renaming) (q q' : Program) : Prop where
  session : Session.Follows R p.session p'.session R₁ q.session q'.session
  vars : VarsRenamed R₁ q.vars q'.vars

variable {R R₁ R₂ : Renaming} {p p' q q' r r' : Program}

namespace Follows

theorem refl (m : p.Twin R p') : Follows R p p' R p p' := ⟨.refl m.session, m.vars⟩

theorem trans (f : Follows R p p' R₁ q q') (g : Follows R₁ q q' R₂ r r') :
    Follows R p p' R₂ r r' := ⟨f.session.trans g.session, g.vars⟩

theorem twin (f : Follows R p p' R₁ q q') (m : p.Twin R p') : q.Twin R₁ q' :=
  ⟨f.session.twin m.session, f.vars⟩

end Follows

namespace Twin

/-- What goes on side by side as an action does so without a change of variables. -/
theorem perform {α β : Type} {act : Act α} {act' : Act β} {good : Renaming → α → β → Prop}
    (m : p.Twin R p') (h : Lockstep R act act' good) :
    ∃ R₁, Follows R p p' R₁ (p.perform act).2 (p'.perform act').2 ∧
      Option.Rel (good R₁) (p.perform act).1 (p'.perform act').1 := by
  have ends := h p.session p'.session m.session
  unfold Program.perform outcome
  generalize act p.session = result at ends ⊢
  generalize act' p'.session = result' at ends ⊢
  cases ends with
  | ok follows hgood => exact ⟨_, ⟨follows, m.vars.mono follows.host.grows⟩, .some hgood⟩
  | error follows => exact ⟨_, ⟨follows, m.vars.mono follows.host.grows⟩, .none⟩

theorem unset (m : p.Twin R p') (x : Nat) : (p.unset x).Twin R (p'.unset x) :=
  ⟨m.session, m.vars.erase x⟩

theorem set (m : p.Twin R p') (x : Nat) {c d : Container} (hc : c.Renamed R d) :
    (p.set x c).Twin R (p'.set x d) := ⟨m.session, m.vars.insert x hc⟩

/-- What the variable held before is released in both. -/
theorem put (m : p.Twin R p') (x : Nat) {c d : Container} (hc : c.Renamed R d) :
    ∃ R₁, Follows R p p' R₁ (p.put x c) (p'.put x d) := by
  have hset := m.set x hc
  have hx := m.vars x
  unfold Program.put
  generalize p.vars.get? x = v at hx ⊢
  generalize p'.vars.get? x = v' at hx ⊢
  cases hx with
  | none => exact ⟨R, .refl m.session, hset.vars⟩
  | some hold =>
    obtain ⟨R₁, follows, -⟩ := hset.perform (.release hold)
    exact ⟨R₁, follows.session, follows.vars⟩

/-- What has been made is put into a variable. -/
theorem store (m : p.Twin R p') (x : Nat) {act act' : Act Container}
    (h : Lockstep R act act' Lockstep.containers) :
    ∃ R₁, Follows R p p' R₁ (p.store x act) (p'.store x act') := by
  obtain ⟨R₁, follows, hmade⟩ := m.perform h
  unfold Program.store
  generalize p.perform act = result at follows hmade ⊢
  generalize p'.perform act' = result' at follows hmade ⊢
  obtain ⟨made, q⟩ := result
  obtain ⟨made', q'⟩ := result'
  cases hmade with
  | none => exact ⟨R₁, follows⟩
  | some hc =>
    obtain ⟨R₂, next⟩ := (follows.twin m).put x hc
    exact ⟨R₂, follows.trans next⟩

/-- The container in a variable is changed in both, or stays in both. -/
theorem update (m : p.Twin R p') (x : Nat) {act act' : Container → Act Container}
    (h : ∀ c d, c.Renamed R d → Lockstep R (act c) (act' d) Lockstep.containers) :
    ∃ R₁, Follows R p p' R₁ (p.update x act) (p'.update x act') := by
  have hx := m.vars x
  unfold Program.update
  generalize p.vars.get? x = v at hx ⊢
  generalize p'.vars.get? x = v' at hx ⊢
  cases hx with
  | none => exact ⟨R, .refl m⟩
  | @some c d hc =>
    obtain ⟨R₁, follows, hchanged⟩ := (m.unset x).perform (h c d hc)
    dsimp only
    generalize (p.unset x).perform (act c) = result at follows hchanged ⊢
    generalize (p'.unset x).perform (act' d) = result' at follows hchanged ⊢
    obtain ⟨changed, q⟩ := result
    obtain ⟨changed', q'⟩ := result'
    have hput : (changed.getD c).Renamed R₁ (changed'.getD d) := by
      cases hchanged with
      | none => exact hc.mono follows.session.host.grows
      | some hc' => exact hc'
    exact ⟨R₁, follows.session, follows.vars.insert x hput⟩

theorem give (m : p.Twin R p') (x : Nat) (hand hand' : Container → Call → Call) :
    ∃ R₁, Follows R p p' R₁ (p.give x hand) (p'.give x hand') := by
  have hx := m.vars x
  unfold Program.give
  generalize p.vars.get? x = v at hx ⊢
  generalize p'.vars.get? x = v' at hx ⊢
  cases hx with
  | none => exact ⟨R, .refl m⟩
  | some hc => exact ⟨R, .refl m.session, m.vars.erase x⟩

/-- Both go on with what is in a variable, or nothing happens in either. -/
theorem on (m : p.Twin R p') (x : Nat) {f f' : Container → Program}
    (h : ∀ c d, c.Renamed R d → ∃ R₁, Follows R p p' R₁ (f c) (f' d)) :
    ∃ R₁, Follows R p p' R₁
      (match p.vars.get? x with
        | some c => f c
        | none => p)
      (match p'.vars.get? x with
        | some c => f' c
        | none => p') := by
  have hx := m.vars x
  generalize p.vars.get? x = v at hx ⊢
  generalize p'.vars.get? x = v' at hx ⊢
  cases hx with
  | none => exact ⟨R, .refl m⟩
  | some hc => exact h _ _ hc

/-- Both act if the container is of a kind, or nothing happens in either. -/
theorem onKind (m : p.Twin R p') {c d : Container} (hc : c.Renamed R d) (kind : ContainerKind)
    {f f' : Program} (h : ∃ R₁, Follows R p p' R₁ f f') :
    ∃ R₁, Follows R p p' R₁ (if c.kind = kind then f else p) (if d.kind = kind then f' else p') := by
  rw [hc.kind]
  split
  · exact h
  · exact ⟨R, .refl m⟩

/-- **Step lemma.** The same operation goes on alike in twins. -/
theorem step (m : p.Twin R p') (op : Op) : ∃ R₁, Follows R p p' R₁ (p.step op) (p'.step op) := by
  cases op with
  | newArray x type dims => exact m.store x (.newArray type dims)
  | arrayOf x type dims values => exact m.store x (.arrayOf type dims values)
  | newList x => exact m.store x .newCollection
  | empty x kind => exact m.put x ⟨rfl, rfl, m.session.host.null⟩
  | convert x y target method tolerance =>
    exact m.on y fun c d hc => m.onKind hc _ (m.store x (.convert hc target method tolerance))
  | copy x y => exact m.on y fun c d hc => m.store x (.copy hc)
  | assign x y =>
    refine m.on y fun other other' hother => m.update x fun c d hc => ?_
    rw [hc.kind, hother.kind]
    split
    · exact .replaceBy hc hother
    · exact .pure hc
  | take x y =>
    refine m.on y fun c d hc => ?_
    -- the variable that is moved out of is left with null
    have hleft : c.moveOut.2.Renamed R d.moveOut.2 := ⟨hc.kind, hc.mode, m.session.host.null⟩
    obtain ⟨R₁, follows⟩ := (m.set y hleft).put x hc
    exact ⟨R₁, follows.session, follows.vars⟩
  | reset x => exact m.update x fun c d hc => .clear hc
  | drop x =>
    refine m.on x fun c d hc => ?_
    obtain ⟨R₁, follows, -⟩ := (m.unset x).perform (.release hc)
    exact ⟨R₁, follows.session, follows.vars⟩
  | intoRaw x => exact m.give x (fun _ call => call) fun _ call => call
  | setContainer x =>
    exact m.give x (fun c call => call.setResult c.payload) fun c call => call.setResult c.payload
  | pushValue list name v plain =>
    refine m.on list fun l l' hl => m.onKind hl _ ?_
    have hplain : v.payload.stored = none := by
      cases v <;> first | rfl | cases plain
    obtain ⟨R₁, follows, -⟩ := m.perform (.pushValue hl name hplain)
    exact ⟨R₁, follows⟩
  | push list name x other =>
    have hlist := m.vars list
    have hx := m.vars x
    simp only [Program.step]
    generalize p.vars.get? list = v at hlist ⊢
    generalize p'.vars.get? list = v' at hlist ⊢
    generalize p.vars.get? x = u at hx ⊢
    generalize p'.vars.get? x = u' at hx ⊢
    cases hlist with
    | none => exact ⟨R, .refl m⟩
    | some hl =>
      cases hx with
      | none => exact ⟨R, .refl m⟩
      | some hc =>
        refine m.onKind hl _ ?_
        obtain ⟨R₁, follows, -⟩ := (m.unset x).perform (.pushContainer hl hc name)
        exact ⟨R₁, follows.session, follows.vars⟩

/-- **Run lemma.** The same operations go on alike in twins. -/
theorem run (m : p.Twin R p') (ops : List Op) : ∃ R₁, Follows R p p' R₁ (p.run ops) (p'.run ops) := by
  induction ops generalizing R p p' with
  | nil => exact ⟨R, .refl m⟩
  | cons op rest ih =>
    obtain ⟨R₁, first⟩ := m.step op
    obtain ⟨R₂, next⟩ := ih (first.twin m)
    exact ⟨R₂, first.trans next⟩

end Twin

/-! ## What variables lead to -/

/-- **What a variable leads to is well kept**, on whatever host the program began, and the session is
one of those that a process gets to. -/
theorem wellKept_run {s : Session} (running : s.Running) (call : Call) (ops : List Op) :
    ((enter s call).run ops).session.Running ∧
    ∀ x c, ((enter s call).run ops).vars.get? x = some c →
      c.mode = .manual ∧ WellKept ((enter s call).run ops).host c.payload := by
  obtain ⟨made, past⟩ := running.hosted
  have begun : (enter s call).Twin _ (start s call) :=
    ⟨⟨Alike.of_nothing past, running.attached, rfl⟩, fun x => .none⟩
  obtain ⟨R, follows⟩ := begun.run ops
  have twins := follows.twin begun
  have holds := (Holds.start s call).run ops
  refine ⟨⟨?_, ?_, twins.session.host.history⟩, fun x c found => ?_⟩
  · exact follows.session.attached.trans running.attached
  · rw [follows.session.registry]
    exact running.registered
  · have hx := twins.vars x
    rw [found] at hx
    generalize hfound' : ((start s call).run ops).vars.get? x = v at hx
    cases hx with
    | @some _ d hc =>
      have forest : Forest ((start s call).run ops).host ((start s call).run ops).roots := holds.forest
      have hroot : d.payload ∈ ((start s call).run ops).roots :=
        List.mem_append_left _ (List.mem_map_of_mem (Table.mem_entries_of_get? hfound'))
      obtain ⟨made', past'⟩ := holds.history
      have kept : WellKept ((start s call).run ops).host d.payload :=
        ⟨forest.nullOrLive hroot, fun e _ => forest.acyclic e,
          twins.session.host.flip.settled hc.payload.flip⟩
      exact ⟨hc.mode.trans (holds.manual x d hfound'), twins.session.host.wellKept hc.payload kept⟩

end Program

end Marshal
