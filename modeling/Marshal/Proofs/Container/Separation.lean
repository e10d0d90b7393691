import Mathlib.Logic.Function.Basic
import Marshal.Proofs.Container.Lockstep
import Marshal.Proofs.Host.Parted

/-!
# `Proofs.Container.Separation` — a copy and its source do not interfere

Two players share one session. One begins with a container, the other one with a copy of it, and each
works on what it can get at: its variables, the nodes of its lists, and whatever it makes of them. They
move in any order. What one of them sees in the end is what it would see if the other one had never
moved, except that handles have other numbers if they are younger than the copy.

The proof keeps, for each player, a renaming from the session they share to the session in which the
player is alone. The renamings of the two have nothing but null in common, so a move, which goes on
alike in the shared session and in that of its player, does not touch what the other one's pairs.

## Contents

* `SideOp`, `SideOp.act` — the operations of a player;
* `Side`, `Player`, `Duet`, `Duet.run` — two players in one session;
* `SideOp.lockstep` — an operation carried out in twins;
* `Apart`, `Apart.step`, `Apart.run` — what every move keeps;
* `Container.copied_of_copy`, `Apart.start` — a copy leads to nothing that its source leads to;
* `copies_apart` — the players do not notice each other.
-/

namespace Marshal

open Marshal.Host

/-! ## What a player does -/

/-- What a player does with its variables, which are numbered. What is appended besides
variables holds no handle of anything stored. -/
inductive SideOp
  | newArray (x : Nat) (type : ElementType) (dims : List Int)
  | arrayOf (x : Nat) (type : ElementType) (dims : List Int) (values : List Scalar)
  | newList (x : Nat)
  | convert (x y : Nat) (target : NumericType) (method : Method) (tolerance : Number.Real64)
  | copy (x y : Nat)
  | assign (x y : Nat)
  | take (x y : Nat)
  | view (x y : Nat) (place : Nat) (kind : ContainerKind) (constant : Bool)
  | write (x : Nat) (type : ElementType) (start : Nat) (values : List Scalar)
  | pushValue (list : Nat) (name : Option String) (v : Value) (plain : v.payload.stored = none)
  | pushPayload (list : Nat) (name : Option String) (p : Payload) (plain : p.stored = none)
  | pushErased (list : Nat) (name : Option String) (kind : Kind) (p : Payload)
    (plain : (p.readAs kind).stored = none)
  | push (list : Nat) (name : Option String) (x : Nat)
  | reset (x : Nat)
  | drop (x : Nat)

namespace SideOp

/-- Act on the container in a variable, if there is one. -/
def on (vars : Table Container) (x : Nat) (act : Container → Act (Table Container)) :
    Act (Table Container) :=
  match vars.get? x with
  | some c => act c
  | none => pure vars

/-- Release what a variable holds. -/
def vacate (vars : Table Container) (x : Nat) : Act Unit :=
  match vars.get? x with
  | some c => c.release
  | none => pure ()

/-- Put a container into a variable, and release the one that it held before. -/
def store (vars : Table Container) (x : Nat) (c : Container) : Act (Table Container) := do
  vacate vars x
  return vars.insert x c

/-- An operation on variables. Its value is what the variables are afterwards. -/
def act (vars : Table Container) : SideOp → Act (Table Container)
  | newArray x type dims => do
    let c ← Act.newArray type dims
    store vars x c
  | arrayOf x type dims values => do
    let c ← Act.arrayOf type dims values
    store vars x c
  | newList x => do
    let c ← Act.newCollection
    store vars x c
  | convert x y target method tolerance => on vars y fun c => do
    let c ← c.convert target method tolerance
    store vars x c
  | copy x y => on vars y fun c => do
    let c ← c.copy
    store vars x c
  | assign x y => on vars x fun c => on vars y fun other => do
    let c ← c.replaceBy other
    return vars.insert x c
  | take x y => on vars y fun c => store (vars.insert y c.moveOut.2) x c.moveOut.1
  | view x y place kind constant => on vars y fun c => do
    let b ← Act.read fun s =>
      s.bind (.view kind constant) ((s.nodes c.handle)[place]?.getD Handle.null)
    match b.value with
    | .view v => store vars x v
    | .value _ => return vars
  | write x type start values => on vars x fun c => do
    let _ ← c.write type start values
    return vars
  | pushValue list name v _ => on vars list fun l => do
    l.pushValue name v
    return vars
  | pushPayload list name p _ => on vars list fun l => do
    l.pushPayload name p
    return vars
  | pushErased list name kind p _ => on vars list fun l => do
    l.pushErased name kind p
    return vars
  | push list name x => on vars list fun l => on vars x fun c => do
    l.pushContainer name c
    return vars.erase x
  | reset x => on vars x fun c => do
    let c ← c.clear
    return vars.insert x c
  | drop x => on vars x fun c => do
    c.release
    return vars.erase x

/-- The variables after an operation has failed. A container that could not be appended is gone. -/
def left (vars : Table Container) : SideOp → Table Container
  | push _ _ x => vars.erase x
  | _ => vars

end SideOp

/-! ## Two players -/

/-- The two players: the one that begins with the source and the one that begins with the copy. -/
inductive Side
  | source
  | copy
  deriving DecidableEq, Repr

/-- What a player has: its variables, and the errors that its operations have raised, in order. -/
structure Player where
  vars : Table Container
  log : List (Option Raised) := []

/-- Two players in one session. -/
structure Duet where
  session : Session
  player : Side → Player

namespace Duet

/-- Each player begins with one container, in its variable zero. -/
def start (s : Session) (source copy : Container) : Duet where
  session := s
  player
    | .source => ⟨({} : Table Container).insert 0 source, []⟩
    | .copy => ⟨({} : Table Container).insert 0 copy, []⟩

/-- One operation of one player. -/
def step (d : Duet) (move : Side × SideOp) : Duet :=
  let p := d.player move.1
  match move.2.act p.vars d.session with
  | .ok vars s => ⟨s, Function.update d.player move.1 ⟨vars, p.log ++ [none]⟩⟩
  | .error e s => ⟨s, Function.update d.player move.1 ⟨move.2.left p.vars, p.log ++ [some e]⟩⟩

/-- Operations of both players, one after the other. -/
def run (d : Duet) (moves : List (Side × SideOp)) : Duet := moves.foldl step d

def host (d : Duet) : Host := d.session.host

end Duet

/-! ## Operations in twins -/

/-- Variables that are the same up to names. -/
def VarsRenamed (R : Renaming) (vars vars' : Table Container) : Prop :=
  ∀ x, Option.Rel (Container.Renamed R) (vars.get? x) (vars'.get? x)

namespace VarsRenamed

variable {R R₁ : Renaming} {vars vars' : Table Container} {c d : Container}

theorem mono (grows : ∀ h k, R h k → R₁ h k) (hv : VarsRenamed R vars vars') :
    VarsRenamed R₁ vars vars' := by
  intro x
  have hx := hv x
  generalize vars.get? x = v at hx ⊢
  generalize vars'.get? x = v' at hx ⊢
  cases hx with
  | none => exact .none
  | some hc => exact .some (hc.mono grows)

theorem insert (hv : VarsRenamed R vars vars') (x : Nat) (hc : c.Renamed R d) :
    VarsRenamed R (vars.insert x c) (vars'.insert x d) := by
  intro y
  rw [Table.get?_insert, Table.get?_insert]
  by_cases hy : y = x
  · rw [if_pos hy, if_pos hy]
    exact .some hc
  · rw [if_neg hy, if_neg hy]
    exact hv y

theorem erase (hv : VarsRenamed R vars vars') (x : Nat) :
    VarsRenamed R (vars.erase x) (vars'.erase x) := by
  intro y
  rw [Table.get?_erase, Table.get?_erase]
  by_cases hy : y = x
  · rw [if_pos hy, if_pos hy]
    exact .none
  · rw [if_neg hy, if_neg hy]
    exact hv y

end VarsRenamed

namespace SideOp

open Act (Lockstep)

variable {R : Renaming} {vars vars' : Table Container}

/-- A variable holds containers that go together, or nothing, in both. -/
theorem on_lockstep (hv : VarsRenamed R vars vars') (x : Nat)
    {f f' : Container → Act (Table Container)}
    (hf : ∀ c d, c.Renamed R d → Lockstep R (f c) (f' d) VarsRenamed) :
    Lockstep R (on vars x f) (on vars' x f') VarsRenamed := by
  have hx := hv x
  unfold on
  generalize vars.get? x = v at hx ⊢
  generalize vars'.get? x = v' at hx ⊢
  cases hx with
  | none => exact .pure hv
  | some hc => exact hf _ _ hc

theorem vacate_lockstep (hv : VarsRenamed R vars vars') (x : Nat) :
    Lockstep R (vacate vars x) (vacate vars' x) fun _ _ _ => True := by
  have hx := hv x
  unfold vacate
  generalize vars.get? x = v at hx ⊢
  generalize vars'.get? x = v' at hx ⊢
  cases hx with
  | none => exact .pure trivial
  | some hc => exact .release hc

theorem store_lockstep (hv : VarsRenamed R vars vars') (x : Nat) {c d : Container}
    (hc : c.Renamed R d) : Lockstep R (store vars x c) (store vars' x d) VarsRenamed :=
  (vacate_lockstep hv x).bind fun _ _ _ grows _ =>
    .pure ((hv.mono grows).insert x (hc.mono grows))

/-- What has been made is put into a variable. -/
theorem made_lockstep {make make' : Act Container} (hv : VarsRenamed R vars vars') (x : Nat)
    (hmake : Lockstep R make make' Lockstep.containers) :
    Lockstep R (make >>= store vars x) (make' >>= store vars' x) VarsRenamed :=
  hmake.bind fun _ _ _ grows hc => store_lockstep (hv.mono grows) x hc

/-- **Every operation goes on alike in twins.** -/
theorem lockstep (op : SideOp) (hv : VarsRenamed R vars vars') :
    Lockstep R (op.act vars) (op.act vars') VarsRenamed := by
  cases op with
  | newArray x type dims => exact made_lockstep hv x (.newArray type dims)
  | arrayOf x type dims values => exact made_lockstep hv x (.arrayOf type dims values)
  | newList x => exact made_lockstep hv x .newCollection
  | convert x y target method tolerance =>
    exact on_lockstep hv y fun c d hc => made_lockstep hv x (.convert hc target method tolerance)
  | copy x y => exact on_lockstep hv y fun c d hc => made_lockstep hv x (.copy hc)
  | assign x y =>
    refine on_lockstep hv x fun c d hc => on_lockstep hv y fun e f he => ?_
    exact (Lockstep.replaceBy hc he).bind fun _ _ _ grows hc' => .pure ((hv.mono grows).insert x hc')
  | take x y =>
    refine on_lockstep hv y fun c d hc => ?_
    intro s s' m
    -- the variable that is moved out of is left with null, which goes together with null
    have hleft : c.moveOut.2.Renamed R d.moveOut.2 := ⟨hc.kind, hc.mode, m.host.null⟩
    exact store_lockstep (hv.insert y hleft) x hc s s' m
  | view x y place kind constant =>
    refine on_lockstep hv y fun c d hc => ?_
    have hread : Lockstep R
        (Act.read fun s => s.bind (.view kind constant) ((s.nodes c.handle)[place]?.getD Handle.null))
        (Act.read fun s => s.bind (.view kind constant) ((s.nodes d.handle)[place]?.getD Handle.null))
        Bound.Renamed := .read fun _ _ m => m.bindNode hc.handle _ place
    refine hread.bind fun R₁ b b' grows hb => ?_
    have hvalue := hb.value
    generalize b.value = v at hvalue ⊢
    generalize b'.value = v' at hvalue ⊢
    cases hvalue with
    | value => exact .pure (hv.mono grows)
    | view hview => exact store_lockstep (hv.mono grows) x hview
  | write x type start values =>
    refine on_lockstep hv x fun c d hc => ?_
    exact (Lockstep.write hc type start values).bind fun _ _ _ grows _ => .pure (hv.mono grows)
  | pushValue list name v plain =>
    refine on_lockstep hv list fun c d hc => ?_
    exact (Lockstep.pushValue hc name plain).bind fun _ _ _ grows _ => .pure (hv.mono grows)
  | pushPayload list name p plain =>
    refine on_lockstep hv list fun c d hc => ?_
    exact (Lockstep.pushPayload hc name (.plain plain)).bind fun _ _ _ grows _ =>
      .pure (hv.mono grows)
  | pushErased list name kind p plain =>
    refine on_lockstep hv list fun c d hc => ?_
    exact (Lockstep.pushErased hc name kind plain).bind fun _ _ _ grows _ => .pure (hv.mono grows)
  | push list name x =>
    refine on_lockstep hv list fun c d hc => on_lockstep hv x fun e f he => ?_
    exact (Lockstep.pushContainer hc he name).bind fun _ _ _ grows _ =>
      .pure ((hv.mono grows).erase x)
  | reset x =>
    refine on_lockstep hv x fun c d hc => ?_
    exact (Lockstep.clear hc).bind fun _ _ _ grows hc' => .pure ((hv.mono grows).insert x hc')
  | drop x =>
    refine on_lockstep hv x fun c d hc => ?_
    exact (Lockstep.release hc).bind fun _ _ _ grows _ => .pure ((hv.mono grows).erase x)

theorem left_renamed (op : SideOp) (hv : VarsRenamed R vars vars') :
    VarsRenamed R (op.left vars) (op.left vars') := by
  cases op with
  | push list name x => exact hv.erase x
  | _ => exact hv

end SideOp

/-- **A step in twins.** The same operation of the same player, in two sessions that are twins under a
renaming under which its variables are the same. -/
theorem Duet.step_follows {R : Renaming} {d d' : Duet} {i : Side} (op : SideOp)
    (m : d.session.Twin R d'.session) (hv : VarsRenamed R (d.player i).vars (d'.player i).vars)
    (hlog : (d.player i).log = (d'.player i).log) :
    ∃ R₁ t t' p p', d.step (i, op) = ⟨t, Function.update d.player i p⟩ ∧
      d'.step (i, op) = ⟨t', Function.update d'.player i p'⟩ ∧
      Session.Follows R d.session d'.session R₁ t t' ∧
      VarsRenamed R₁ p.vars p'.vars ∧ p.log = p'.log := by
  have hends := op.lockstep hv d.session d'.session m
  unfold Duet.step
  dsimp only
  generalize op.act (d.player i).vars d.session = r at hends ⊢
  generalize op.act (d'.player i).vars d'.session = r' at hends ⊢
  cases hends with
  | ok follows hvars =>
    exact ⟨_, _, _, _, _, rfl, rfl, follows, hvars, by rw [hlog]⟩
  | error follows =>
    refine ⟨_, _, _, _, _, rfl, rfl, follows, ?_, by rw [hlog]⟩
    exact (op.left_renamed hv).mono follows.host.grows

/-! ## What every move keeps -/

/-- **The players are apart.** Each sees in the shared session what it sees in the session in which it
is alone, under a renaming of its own. -/
structure Apart (first : Handle) (R : Side → Renaming) (full : Duet) (alone : Side → Duet) : Prop where
  twin : ∀ i, full.session.Twin (R i) (alone i).session
  vars : ∀ i, VarsRenamed (R i) (full.player i).vars ((alone i).player i).vars
  log : ∀ i, (full.player i).log = ((alone i).player i).log
  /-- The players have nothing but null in common. -/
  disjoint : ∀ i j, i ≠ j → ∀ h k k', R i h k → R j h k' → h = Handle.null
  /-- Handles from before the number `first` have kept their numbers. -/
  same : ∀ i h k, R i h k → h < first ∨ k < first → h = k
  next : first ≤ full.host.nextId
  next' : ∀ i, first ≤ (alone i).host.nextId

namespace Apart

variable {first : Handle} {R : Side → Renaming} {full : Duet} {alone : Side → Duet}

/-- What a player leads to is not touched by a move of the other one. -/
theorem untouched (a : Apart first R full alone) {i j : Side} (hij : i ≠ j) {R₁ : Renaming}
    {t t' : Session} (follows : Session.Follows (R j) full.session (alone j).session R₁ t t')
    {h k : Handle} (paired : R i h k) : Untouched full.host t.host h := by
  by_cases hnull : h = Handle.null
  · rw [hnull]
    exact Alike.untouched_null (a.twin i).host.history follows.host.alike.history
  · refine follows.host.spares h ((a.twin i).host.bounded h k paired).1 fun k' paired' => ?_
    exact hnull (a.disjoint i j hij h k k' paired paired')

/-- A player has moved in the shared session and in its own. -/
theorem advance (a : Apart first R full alone) {j : Side} {R₁ : Renaming} {t t' : Session}
    {p p' : Player} (follows : Session.Follows (R j) full.session (alone j).session R₁ t t')
    (hvars : VarsRenamed R₁ p.vars p'.vars) (hlog : p.log = p'.log) :
    Apart first (Function.update R j R₁) ⟨t, Function.update full.player j p⟩
      (Function.update alone j ⟨t', Function.update (alone j).player j p'⟩) := by
  -- new pairs are of numbers that the other player cannot have yet
  have hother : ∀ i, i ≠ j → ∀ h k k', R i h k → R₁ h k' → h = Handle.null := by
    intro i hij h k k' paired paired'
    rcases follows.host.fresh h k' paired' with before | ⟨new, -⟩
    · exact a.disjoint i j hij h k k' paired before
    · exact absurd ((a.twin i).host.bounded h k paired).1 (Nat.not_lt.mpr new)
  constructor
  case twin =>
    intro i
    by_cases hij : i = j
    · subst hij
      rw [Function.update_self, Function.update_self]
      exact follows.twin (a.twin i)
    · -- the session of the other player stands still, and what its renaming pairs is not touched
      rw [Function.update_of_ne hij, Function.update_of_ne hij]
      have m := a.twin i
      refine ⟨m.host.spared follows.host.alike.history follows.host.next ?_, ?_, ?_⟩
      · exact fun h k paired => a.untouched hij follows paired
      · exact follows.attached.trans m.attached
      · exact follows.registry.trans m.registry
  case vars =>
    intro i
    by_cases hij : i = j
    · subst hij
      simp only [Function.update_self]
      exact hvars
    · simp only [Function.update_of_ne hij]
      exact a.vars i
  case log =>
    intro i
    by_cases hij : i = j
    · subst hij
      simp only [Function.update_self]
      exact hlog
    · simp only [Function.update_of_ne hij]
      exact a.log i
  case disjoint =>
    intro i i' hne h k k' paired paired'
    by_cases hij : i = j
    · subst hij
      rw [Function.update_self] at paired
      rw [Function.update_of_ne hne.symm] at paired'
      exact hother i' hne.symm h k' k paired' paired
    · rw [Function.update_of_ne hij] at paired
      by_cases hij' : i' = j
      · subst hij'
        rw [Function.update_self] at paired'
        exact hother i hne h k k' paired paired'
      · rw [Function.update_of_ne hij'] at paired'
        exact a.disjoint i i' hne h k k' paired paired'
  case same =>
    intro i h k paired hfirst
    by_cases hij : i = j
    · subst hij
      rw [Function.update_self] at paired
      rcases follows.host.fresh h k paired with before | ⟨new, new'⟩
      · exact a.same i h k before hfirst
      · -- a new pair is of numbers that come after `first` in both sessions
        rcases hfirst with hlt | hlt
        · exact absurd hlt (Nat.not_lt.mpr (Nat.le_trans a.next new))
        · exact absurd hlt (Nat.not_lt.mpr (Nat.le_trans (a.next' i) new'))
    · rw [Function.update_of_ne hij] at paired
      exact a.same i h k paired hfirst
  case next => exact Nat.le_trans a.next follows.host.next
  case next' =>
    intro i
    by_cases hij : i = j
    · subst hij
      rw [Function.update_self]
      exact Nat.le_trans (a.next' i) follows.host.next'
    · rw [Function.update_of_ne hij]
      exact a.next' i

/-- **Step lemma.** A move in the shared session is a move of its player alone, and none of the other
one. -/
theorem step (a : Apart first R full alone) (move : Side × SideOp) :
    ∃ R', Apart first R' (full.step move)
      (Function.update alone move.1 ((alone move.1).step move)) := by
  obtain ⟨j, op⟩ := move
  obtain ⟨R₁, t, t', p, p', hfull, halone, follows, hvars, hlog⟩ :=
    Duet.step_follows op (a.twin j) (a.vars j) (a.log j)
  rw [hfull, halone]
  exact ⟨_, a.advance follows hvars hlog⟩

/-- **Run lemma.** Each player sees what it sees in the run of its own moves. -/
theorem run (a : Apart first R full alone) (moves : List (Side × SideOp)) :
    ∃ R', Apart first R' (full.run moves)
      fun i => (alone i).run (moves.filter (·.1 = i)) := by
  induction moves generalizing R full alone with
  | nil => exact ⟨R, a⟩
  | cons move rest ih =>
    obtain ⟨R₁, hstep⟩ := a.step move
    obtain ⟨R₂, hrest⟩ := ih hstep
    refine ⟨R₂, ?_⟩
    -- the move is the first one of its player's run and is not in the other one's
    have hmoves : (fun i => (Function.update alone move.1 ((alone move.1).step move) i).run
        (rest.filter (·.1 = i))) = fun i => (alone i).run ((move :: rest).filter (·.1 = i)) := by
      funext i
      by_cases hi : move.1 = i
      · subst hi
        rw [Function.update_self, List.filter_cons_of_pos (by simp)]
        rfl
      · rw [Function.update_of_ne (Ne.symm hi), List.filter_cons_of_neg (by simpa using hi)]
    rw [← hmoves]
    exact hrest

end Apart

/-! ## What a copied container leads to -/

/-- The host has made what a request that does not fail gives. -/
theorem Act.ok_of_request {action : Host → Option Handle × Host} {rest : Option Handle → Act Handle}
    {fault : Fault} {s t : Session} {k : Handle} (hsome : ∀ h, rest (some h) = pure h)
    (hnone : rest none = fail fault) (h : (request none action >>= rest) s = .ok k t) :
    action s.host = (some k, t.host) := by
  have hbind : (request none action >>= rest) s =
      rest (s.request none action).1 (s.request none action).2 := rfl
  rw [hbind] at h
  unfold Session.request at h
  split at h
  · rcases hr : action s.host with ⟨_ | k', w⟩
    · rw [hr] at h
      dsimp only at h
      rw [hnone] at h
      cases h
    · rw [hr] at h
      dsimp only at h
      rw [hsome] at h
      cases h
      rfl
  · dsimp only at h
    rw [hnone] at h
    cases h

/-- **What a copied container is**: an empty one of an empty one, and otherwise the copy that the host
has made of the contents. The library owns it. -/
theorem Container.copied_of_copy {s t : Session} {a b : Container} (h : a.copy s = .ok b t) :
    b.mode = .manual ∧ ((a.handle = Handle.null ∧ b = ⟨a.kind, .manual, Handle.null⟩ ∧ t = s) ∨
      copyPayload (fun c w => w.copyCollection c) s.host a.payload = (some b.payload, t.host)) := by
  obtain ⟨k, hcopy, rfl⟩ : ∃ k, Act.copyHandle a.kind a.handle s = .ok k t ∧
      b = ⟨a.kind, .manual, k⟩ := by
    have hbind : a.copy s = EStateM.bind (Act.copyHandle a.kind a.handle)
        (fun copy => pure ⟨a.kind, .manual, copy⟩) s := rfl
    rw [hbind] at h
    unfold EStateM.bind at h
    generalize Act.copyHandle a.kind a.handle s = r at h ⊢
    cases r with
    | ok k t' =>
      cases h
      exact ⟨k, rfl, rfl⟩
    | error e t' => cases h
  refine ⟨rfl, ?_⟩
  unfold Act.copyHandle at hcopy
  by_cases hnull : a.handle = Handle.null
  · rw [if_pos hnull] at hcopy
    cases hcopy
    exact .inl ⟨hnull, by rw [hnull], rfl⟩
  · rw [if_neg hnull] at hcopy
    right
    obtain ⟨kind, mode, handle⟩ := a
    cases kind with
    | tensor =>
      have hmade := Act.ok_of_request (fun _ => rfl) rfl hcopy
      show ((s.host.copyArray handle).1.map _, (s.host.copyArray handle).2) = _
      rw [hmade]
      rfl
    | numericArray =>
      have hmade := Act.ok_of_request (fun _ => rfl) rfl hcopy
      show ((s.host.copyArray handle).1.map _, (s.host.copyArray handle).2) = _
      rw [hmade]
      rfl
    | collection =>
      have hmade := Act.ok_of_request (fun _ => rfl) rfl hcopy
      show ((s.host.copyCollection handle).1.map _, (s.host.copyCollection handle).2) = _
      rw [hmade]
      rfl

/-- A copied container is parted from its source. -/
theorem Container.parted_of_copy {made : List (Handle × Use)} {s t : Session} {a b : Container}
    (past : History made s.host) (h : a.copy s = .ok b t)
    (settled : Settled s.host.collections s.host.nextId t.host.nextId a.payload) :
    Parted s.host t.host a.payload b.payload := by
  rcases (Container.copied_of_copy h).2 with ⟨hnull, rfl, rfl⟩ | hcopy
  · have ha : a.payload = .ofHandle a.kind.kind Handle.null := by rw [Container.payload, hnull]
    rw [ha]
    exact .null ⟨made, past⟩ a.kind
  · have bounded := past.sound.is_bounded
    have start : Confined s.host.nextId s.host s.host := .refl (Nat.le_refl _) bounded.closed
    have resembles := fun c w => (Resembles.copyRule s.host t.host.nextId).copyCollection w c
    have copied := copyPayload_copied resembles bounded start settled hcopy (Nat.le_refl _)
    have hev := copyPayload_evolves (fun c w => (resembles c w).toFramed) hcopy
    obtain ⟨confined, new⟩ := start.copyPayload (fun c w hw => hw.copyCollection c) a.payload
    rw [hcopy] at confined new
    exact copied.parted past hev confined (new _ rfl)

/-! ## The beginning -/

/-- The renaming that a player begins with: what its container leads to keeps its numbers. -/
def Duet.firstNames (w : Host) (a b : Container) : Side → Renaming
  | .source => fun h k => h = k ∧ Reaches w.collections a.payload h
  | .copy => fun h k => h = k ∧ Reaches w.collections b.payload h

/-- A container leads to its own handle. -/
theorem Container.reaches_handle (live : Table (List Node)) (c : Container) :
    Reaches live c.payload c.handle := by
  obtain ⟨kind, mode, handle⟩ := c
  cases kind with
  | tensor => exact .inr (.inl ⟨_, .array, owned_self, rfl⟩)
  | numericArray => exact .inr (.inl ⟨_, .array, owned_self, rfl⟩)
  | collection => exact .inr (.inl ⟨_, .collection, owned_self, rfl⟩)

/-- **Players are apart at the beginning** if their containers are parted. -/
theorem Apart.start {w : Host} {t : Session} {a b : Container}
    (parted : Parted w t.host a.payload b.payload) :
    Apart t.host.nextId (Duet.firstNames t.host a b) (Duet.start t a b) fun _ => Duet.start t a b := by
  obtain ⟨made, past⟩ := parted.history
  have single : ∀ {R : Renaming} {c : Container}, c.Renamed R c →
      VarsRenamed R (({} : Table Container).insert 0 c) (({} : Table Container).insert 0 c) := by
    intro R c hc
    refine VarsRenamed.insert ?_ 0 hc
    exact fun x => .none
  constructor
  case twin =>
    rintro (_ | _)
    · exact ⟨.self past parted.source, rfl, rfl⟩
    · exact ⟨.self past parted.copy, rfl, rfl⟩
  case vars =>
    rintro (_ | _)
    · exact single ⟨rfl, rfl, rfl, a.reaches_handle _⟩
    · exact single ⟨rfl, rfl, rfl, b.reaches_handle _⟩
  case log => exact fun i => rfl
  case disjoint =>
    -- a handle that both lead to would be older than the copy and not older
    have apart : ∀ h, Reaches t.host.collections a.payload h →
        Reaches t.host.collections b.payload h → h = Handle.null := by
      intro h hsource hcopy
      rcases parted.below h hsource with hnull | hlt
      · exact hnull
      · rcases parted.above h hcopy with hnull | hle
        · exact hnull
        · exact absurd hlt (Nat.not_lt.mpr hle)
    rintro (_ | _) (_ | _) hne h k k' ⟨-, hreach⟩ ⟨-, hreach'⟩
    · exact absurd rfl hne
    · exact apart h hreach hreach'
    · exact apart h hreach' hreach
    · exact absurd rfl hne
  case same =>
    rintro (_ | _) h k ⟨hsame, -⟩ -
    · exact hsame
    · exact hsame
  case next => exact Nat.le_refl _
  case next' => exact fun i => Nat.le_refl _

/-! ## What the players see -/

/-- **A player sees the same** in two states, up to the numbers of handles from `first` on: the same
errors in the same order, the same handles live, and variables that show the same. -/
structure Duet.SeesSame (first : Handle) (i : Side) (R : Renaming) (d d' : Duet) : Prop where
  injective : ∀ h h' k, R h k → R h' k → h = h'
  functional : ∀ h k k', R h k → R h k' → k = k'
  same : ∀ h k, R h k → h < first ∨ k < first → h = k
  isLive : ∀ h k, R h k → d.host.isLive h = d'.host.isLive k
  log : (d.player i).log = (d'.player i).log
  vars : ∀ x, Option.Rel (Container.Alike R d.session d'.session) ((d.player i).vars.get? x)
    ((d'.player i).vars.get? x)

namespace Apart

variable {first : Handle} {R : Side → Renaming} {full : Duet} {alone : Side → Duet}

theorem seesSame (a : Apart first R full alone) (i : Side) :
    Duet.SeesSame first i (R i) full (alone i) where
  injective := (a.twin i).host.injective
  functional := (a.twin i).host.functional
  same := a.same i
  isLive h k paired := (a.twin i).isLive paired
  log := a.log i
  vars x := by
    have hx := a.vars i x
    generalize (full.player i).vars.get? x = v at hx ⊢
    generalize ((alone i).player i).vars.get? x = v' at hx ⊢
    cases hx with
    | none => exact .none
    | some hc => exact .some ((a.twin i).alike hc)

/-- What a variable of a player leads to is not touched by a move of the other one. -/
theorem untouched_of_reaches (a : Apart first R full alone) {i : Side} {x : Nat} {c : Container}
    (found : (full.player i).vars.get? x = some c) {move : Side × SideOp} (other : move.1 ≠ i)
    {h : Handle} (hreach : Reaches full.host.collections c.payload h) :
    Untouched full.host (full.step move).host h := by
  have hx := a.vars i x
  rw [found] at hx
  generalize ((alone i).player i).vars.get? x = v at hx
  cases hx with
  | some hc =>
    obtain ⟨k, paired⟩ := (a.twin i).host.reaches hc.payload hreach
    obtain ⟨j, op⟩ := move
    obtain ⟨R₁, t, t', p, p', hfull, -, follows, -⟩ :=
      Duet.step_follows op (a.twin j) (a.vars j) (a.log j)
    rw [hfull]
    exact a.untouched (Ne.symm other) follows paired

end Apart

/-- **A copy and its source never interfere.** Take a container of any state that the host can get to,
of any kind and mode, that has been copied, nothing in which refers to a number that the copying itself
has given out. The library owns the copy. Whatever two players do, one beginning with the container and
the other one with the copy, each sees what it would see if the other one had never moved, up to the
numbers of handles given out later. Nothing that a variable of one leads to is touched by a move of the
other one; in particular, releasing the copy leaves everything live that the container leads to. -/
theorem copies_apart {made : List (Handle × Use)} {s t : Session} {a b : Container}
    (past : History made s.host) (copied : a.copy s = .ok b t)
    (settled : Settled s.host.collections s.host.nextId t.host.nextId a.payload) :
    b.mode = .manual ∧
    (∀ (moves : List (Side × SideOp)) (i : Side), ∃ R, Duet.SeesSame t.host.nextId i R
      ((Duet.start t a b).run moves) ((Duet.start t a b).run (moves.filter (·.1 = i)))) ∧
    (∀ (moves : List (Side × SideOp)) (i : Side) (x : Nat) (c : Container),
      (((Duet.start t a b).run moves).player i).vars.get? x = some c →
      ∀ move : Side × SideOp, move.1 ≠ i →
      ∀ h, Reaches ((Duet.start t a b).run moves).host.collections c.payload h →
        Untouched ((Duet.start t a b).run moves).host
          (((Duet.start t a b).run moves).step move).host h) ∧
    (∀ q u h, Owned t.host.collections [a.payload] q → q.stored = some (u, h) → h ≠ Handle.null →
      ((Duet.start t a b).step (.copy, .drop 0)).host.names u h = true) := by
  have parted := Container.parted_of_copy past copied settled
  have untouched : ∀ (moves : List (Side × SideOp)) (i : Side) (x : Nat) (c : Container),
      (((Duet.start t a b).run moves).player i).vars.get? x = some c →
      ∀ move : Side × SideOp, move.1 ≠ i →
      ∀ h, Reaches ((Duet.start t a b).run moves).host.collections c.payload h →
        Untouched ((Duet.start t a b).run moves).host
          (((Duet.start t a b).run moves).step move).host h := by
    intro moves i x c found move other h hreach
    obtain ⟨R, hrun⟩ := (Apart.start parted).run moves
    exact hrun.untouched_of_reaches found other hreach
  refine ⟨(Container.copied_of_copy copied).1, ?_, untouched, ?_⟩
  · intro moves i
    obtain ⟨R, hrun⟩ := (Apart.start parted).run moves
    exact ⟨R i, hrun.seesSame i⟩
  · intro q u h howned stored hnull
    have found : ((Duet.start t a b).player .source).vars.get? 0 = some a :=
      Table.get?_insert_self ..
    have hstays := untouched [] .source 0 a found (.copy, .drop 0) (by decide) h
      (.inr (.inl ⟨q, u, howned, stored⟩))
    have hlive : t.host.names u h = true := (parted.source q u h howned stored).resolve_left hnull
    exact (hstays.names_eq stored).trans hlive

/-! ## Two lists -/

/-- Copying a list that is not null, as an equation. -/
theorem Container.copy_list_eq {s : Session} (attached : s.attached = true) (mode : Passing)
    {c : Handle} (hnull : c ≠ Handle.null) :
    (⟨.collection, mode, c⟩ : Container).copy s =
      match (s.host.copyCollection c).1 with
      | some k => .ok ⟨.collection, .manual, k⟩ { s with host := (s.host.copyCollection c).2 }
      | none =>
        .error (s.registry.errorOf .collectionCopy) { s with host := (s.host.copyCollection c).2 } := by
  have asked := Session.request_of_attached attached none (·.copyCollection c)
  unfold Container.copy Act.copyHandle
  dsimp only
  rw [if_neg hnull]
  simp only [bind, EStateM.bind, Act.request, asked]
  cases (s.host.copyCollection c).1 <;> rfl

/-- A list that the host can copy is copied so. -/
theorem Container.copy_of_copyCollection (s : Session) (mode : Passing) {c k : Handle}
    (attached : s.attached = true) (hnull : c ≠ Handle.null)
    (hcopy : (s.host.copyCollection c).1 = some k) :
    (⟨.collection, mode, c⟩ : Container).copy s =
      .ok ⟨.collection, .manual, k⟩ { s with host := (s.host.copyCollection c).2 } := by
  rw [copy_list_eq attached mode hnull, hcopy]

/-- A session with a list that holds another list twice, which holds an array. -/
def sharedLists : Session where
  host := Host.run {} [.newCollection, .hostArray (.numeric .int8) [2], .newCollection,
    .addNode 3 none (.numericArray 2), .addNode 1 none (.collection 3), .addNode 1 none (.collection 3)]

/-- The player of the copy writes to its array and drops the copy. The player of the source gets at its
own array. -/
def sharedMoves : List (Side × SideOp) :=
  [(.copy, .view 1 0 0 .collection false), (.copy, .view 2 1 0 .numericArray false),
    (.copy, .write 2 (.numeric .int8) 0 [.integer 9]), (.source, .view 1 0 1 .collection true),
    (.copy, .drop 0), (.source, .view 2 1 0 .numericArray true)]

/-- The array of the source is what it was, whatever has been written to that of the copy. -/
theorem copies_apart_sharedLists : ∃ t,
    (⟨.collection, .shared, 1⟩ : Container).copy sharedLists = .ok ⟨.collection, .manual, 7⟩ t ∧
      ∃ c, (((Duet.start t ⟨.collection, .shared, 1⟩ ⟨.collection, .manual, 7⟩).run
          sharedMoves).player .source).vars.get? 2 = some c ∧
        (c.elements (.numeric .int8) ((Duet.start t ⟨.collection, .shared, 1⟩
          ⟨.collection, .manual, 7⟩).run sharedMoves).session).toOption =
            some [.integer 0, .integer 0] := by
  obtain ⟨made, past⟩ := History.start.run [.newCollection, .hostArray (.numeric .int8) [2],
    .newCollection, .addNode 3 none (.numericArray 2), .addNode 1 none (.collection 3),
    .addNode 1 none (.collection 3)]
  have hcopy : (sharedLists.host.copyCollection 1).1 = some 7 := by decide
  have copied := Container.copy_of_copyCollection sharedLists .shared rfl (by decide) hcopy
  refine ⟨_, copied, ?_⟩
  have settled : Settled sharedLists.host.collections sharedLists.host.nextId
      (sharedLists.host.copyCollection 1).2.nextId (.collection 1) :=
    settled_of_past (by decide) (by decide)
  obtain ⟨R, sees⟩ := (copies_apart past copied settled).2.1 sharedMoves .source
  -- alone, the player of the source gets at its array and finds zeros
  have halone : ((((Duet.start { sharedLists with host := (sharedLists.host.copyCollection 1).2 }
      ⟨.collection, .shared, 1⟩ ⟨.collection, .manual, 7⟩).run
        (sharedMoves.filter (·.1 = .source))).player .source).vars.get? 2) =
          some ⟨.numericArray, .constant, 2⟩ := by decide +kernel
  have hvar := sees.vars 2
  rw [halone] at hvar
  generalize (((Duet.start _ _ _).run sharedMoves).player .source).vars.get? 2 = v at hvar ⊢
  cases hvar with
  | @some c _ halike =>
    refine ⟨c, rfl, ?_⟩
    rw [halike.elements]
    decide +kernel

/-- A session with a list that holds an array and the handle that the copy of the array is going to
have. -/
def danglingList : Session where
  host := Host.run {} [.newCollection, .hostArray (.tensor .integer) [2], .addNode 1 none (.tensor 2),
    .addNode 1 none (.tensor 6)]

/-- The player of the copy writes to its first array, and the player of the source gets at its second
one. -/
def danglingMoves : List (Side × SideOp) :=
  [(.copy, .view 1 0 0 .tensor false), (.copy, .write 1 (.tensor .integer) 0 [.integer 9]),
    (.source, .view 1 0 1 .tensor false)]

/-- **A list that holds a handle which its copy is given interferes with its copy.** What is written to
the array of the copy is read through the list. -/
theorem copies_not_apart_danglingList : ¬ ∀ (made : List (Handle × Use)) (s t : Session)
    (a b : Container), History made s.host →
      (∀ c, a.payload = .collection c → Acyclic s.host.collections c) → a.copy s = .ok b t →
      ∀ (moves : List (Side × SideOp)) (i : Side), ∃ R, Duet.SeesSame t.host.nextId i R
        ((Duet.start t a b).run moves) ((Duet.start t a b).run (moves.filter (·.1 = i))) := by
  intro h
  obtain ⟨made, past⟩ := History.start.run [.newCollection, .hostArray (.tensor .integer) [2],
    .addNode 1 none (.tensor 2), .addNode 1 none (.tensor 6)]
  have acyclic : ∀ c, (⟨.collection, .manual, 1⟩ : Container).payload = .collection c →
      Acyclic danglingList.host.collections c :=
    fun c _ => acyclic_of_increasing (by decide) c
  have hcopy : (danglingList.host.copyCollection 1).1 = some 5 := by decide
  have copied := Container.copy_of_copyCollection danglingList .manual rfl (by decide) hcopy
  obtain ⟨R, sees⟩ := h _ danglingList _ _ _ past acyclic copied danglingMoves .source
  have hfull : ((((Duet.start { danglingList with host := (danglingList.host.copyCollection 1).2 }
      ⟨.collection, .manual, 1⟩ ⟨.collection, .manual, 5⟩).run danglingMoves).player
        .source).vars.get? 1) = some ⟨.tensor, .automatic, 6⟩ := by decide +kernel
  have halone : ((((Duet.start { danglingList with host := (danglingList.host.copyCollection 1).2 }
      ⟨.collection, .manual, 1⟩ ⟨.collection, .manual, 5⟩).run
        (danglingMoves.filter (·.1 = .source))).player .source).vars.get? 1) =
          some ⟨.tensor, .automatic, 6⟩ := by decide +kernel
  have hvar := sees.vars 1
  rw [hfull, halone] at hvar
  cases hvar with
  | some halike =>
    have helements := congrArg Except.toOption (halike.elements (.tensor .integer))
    revert helements
    decide +kernel

end Marshal
