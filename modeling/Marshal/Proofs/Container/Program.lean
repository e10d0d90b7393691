import Marshal.Call
import Marshal.Proofs.Container.Moves

/-!
# `Proofs.Container.Program` — programs that own what they make

A program keeps containers in variables and works on them with the operations of the library. What
it makes is its own until it drops it, puts it into a list or gives it away. Each operation is one
action with some variables taken out before it and put back after it, so the ownership that the
actions move adds up: whatever the program does, everything on the host has one owner.

## Contents

* `Program`, `Op`, `step`, `run` — programs with their variables;
* `Holds` — the invariant, with contents that are between two owners;
* `Holds.step`, `Holds.run` — what operations keep;
* `Accounted`, `run_accounted` — what holds in every state of every program.
-/

namespace Marshal

open Marshal.Host

/-! ## Programs -/

/-- A program: the session, its variables, what it has given away, and the call that it answers. -/
structure Program where
  session : Session
  vars : Table Container := {}
  given : List Container := []
  call : Call

/-- What a program does with variables, which are numbered. New containers belong to the library.
    Values that are appended are numbers and texts, and no list is appended to itself. -/
inductive Op
  | newArray (x : Nat) (type : ElementType) (dims : List Int)
  | arrayOf (x : Nat) (type : ElementType) (dims : List Int) (values : List Scalar)
  | newList (x : Nat)
  | empty (x : Nat) (kind : ContainerKind)
  | convert (x y : Nat) (target : NumericType) (method : Method) (tolerance : Number.Real64)
  | copy (x y : Nat)
  | assign (x y : Nat)
  | take (x y : Nat)
  | reset (x : Nat)
  | drop (x : Nat)
  | intoRaw (x : Nat)
  | setContainer (x : Nat)
  | pushValue (list : Nat) (name : Option String) (v : Value)
      (plain : v.payload.kind.isPrimitive = true)
  | push (list : Nat) (name : Option String) (x : Nat) (other : x ≠ list)

namespace Program

/-- A program at its start: the host's callback table is installed and the host is empty. -/
def start (s : Session) (call : Call) : Program where
  session := { s with host := {}, attached := true }
  call := call

def host (p : Program) : Host := p.session.host

/-- Act, without any change of variables. -/
def perform {α : Type} (p : Program) (act : Act α) : Option α × Program :=
  ((outcome act p.session).1, { p with session := (outcome act p.session).2 })

/-- Take the container out of a variable. -/
def unset (p : Program) (x : Nat) : Program := { p with vars := p.vars.erase x }

/-- Put a container into a variable. -/
def set (p : Program) (x : Nat) (c : Container) : Program := { p with vars := p.vars.insert x c }

/-- Put a container into a variable, and release the one that it held before. -/
def put (p : Program) (x : Nat) (c : Container) : Program :=
  match p.vars.get? x with
  | some old => ((p.set x c).perform old.release).2
  | none => p.set x c

/-- Put what an action makes into a variable. -/
def store (p : Program) (x : Nat) (act : Act Container) : Program :=
  match p.perform act with
  | (some c, p) => p.put x c
  | (none, p) => p

/-- Change the container in a variable. If that fails it stays. -/
def update (p : Program) (x : Nat) (act : Container → Act Container) : Program :=
  match p.vars.get? x with
  | some c =>
    let (changed, p) := (p.unset x).perform (act c)
    p.set x (changed.getD c)
  | none => p

/-- Give away the container in a variable. -/
def give (p : Program) (x : Nat) (hand : Container → Call → Call) : Program :=
  match p.vars.get? x with
  | some c => { p.unset x with given := c :: p.given, call := hand c p.call }
  | none => p

/-- One operation. Nothing happens if a variable is missing or holds a container of another kind. -/
def step (p : Program) : Op → Program
  | .newArray x type dims => p.store x (Act.newArray type dims)
  | .arrayOf x type dims values => p.store x (Act.arrayOf type dims values)
  | .newList x => p.store x Act.newCollection
  | .empty x kind => p.put x (.empty kind .manual)
  | .convert x y target method tolerance =>
    match p.vars.get? y with
    | some c => if c.kind = .numericArray then p.store x (c.convert target method tolerance) else p
    | none => p
  | .copy x y =>
    match p.vars.get? y with
    | some c => p.store x c.copy
    | none => p
  | .assign x y =>
    match p.vars.get? y with
    | some other => p.update x fun c => if c.kind = other.kind then c.replaceBy other else pure c
    | none => p
  | .take x y =>
    match p.vars.get? y with
    | some c => (p.set y c.moveOut.2).put x c.moveOut.1
    | none => p
  | .reset x => p.update x Container.clear
  | .drop x =>
    match p.vars.get? x with
    | some c => ((p.unset x).perform c.release).2
    | none => p
  | .intoRaw x => p.give x fun _ call => call
  | .setContainer x => p.give x fun c call => call.setResult c.payload
  | .pushValue list name v _ =>
    match p.vars.get? list with
    | some l => if l.kind = .collection then (p.perform (l.pushValue name v)).2 else p
    | none => p
  | .push list name x _ =>
    match p.vars.get? list, p.vars.get? x with
    | some l, some c =>
      if l.kind = .collection then ((p.unset x).perform (l.pushContainer name c)).2 else p
    | _, _ => p

/-- Operations, one after the other. -/
def run (p : Program) (ops : List Op) : Program := ops.foldl step p

/-- Drop what is left in variables. -/
def dropAll (p : Program) : Program := p.run (p.vars.entries.map fun e => .drop e.1)

/-! ## Owners -/

/-- What owns things from outside the host: the variables, and whoever has been given something. -/
def roots (p : Program) : List Payload :=
  p.vars.entries.map (·.2.payload) ++ p.given.map (·.payload)

/-- What is in a variable can be put first. -/
theorem roots_perm {p : Program} {x : Nat} {c : Container} (found : p.vars.get? x = some c) :
    p.roots.Perm (c.payload :: (p.unset x).roots) := by
  have hvars : (p.vars.entries.map (·.2.payload)).Perm
      (c.payload :: (p.unset x).vars.entries.map (·.2.payload)) :=
    (Table.perm_entries found).map _
  exact hvars.append_right _

/-- **The host is a forest** whose roots are those of the program and `pending`, which is between two
    owners. -/
structure Holds (p : Program) (pending : List Payload) : Prop where
  attached : p.session.attached = true
  manual : ∀ x c, p.vars.get? x = some c → c.IsManual
  history : ∃ made, History made p.host
  kept : ∀ h, (p.host.releasesOf h).disowns = 0
  forest : Forest p.host (pending ++ p.roots)

namespace Holds

variable {p : Program} {pending : List Payload} {x : Nat} {c : Container}

/-- A program holds nothing at its start. -/
theorem start (s : Session) (call : Call) : (Program.start s call).Holds [] where
  attached := rfl
  manual _ _ h := by cases h
  history := ⟨[], .start⟩
  kept _ := rfl
  forest := Forest.empty

/-- After an action the host has gone on, and the program is what it was. -/
theorem acted {α : Type} {act : Act α} {pending' : List Payload} (h : p.Holds pending)
    (attached : (outcome act p.session).2.attached = true)
    (hev : Evolves p.host (outcome act p.session).2.host)
    (forest : Forest (outcome act p.session).2.host (pending' ++ p.roots)) :
    (p.perform act).2.Holds pending' := by
  obtain ⟨made, past⟩ := h.history
  obtain ⟨more, hmore⟩ := hev
  refine ⟨attached, h.manual, ⟨_, past.changes hmore⟩, fun k => ?_, forest⟩
  exact (Evolves.disowns ⟨more, hmore⟩ k).trans (h.kept k)

/-- An action moves what is between two owners. -/
theorem perform {α : Type} {act : Act α} {after : Option α → List Payload} (h : p.Holds pending)
    (hact : Moves pending act after) : (p.perform act).2.Holds (after (p.perform act).1) := by
  obtain ⟨attached, hev, forest⟩ := hact p.session p.roots h.attached h.forest
  exact h.acted attached hev forest

/-- The container in a variable may be acted on where it is. -/
theorem perform_at {α : Type} {act : Act α} (h : p.Holds pending) (found : p.vars.get? x = some c)
    (hact : Moves (pending ++ [c.payload]) act fun _ => [c.payload]) :
    (p.perform act).2.Holds [] := by
  have hroots := roots_perm found
  have forest : Forest p.host (pending ++ [c.payload] ++ (p.unset x).roots) := by
    rw [List.append_assoc]
    exact h.forest.perm (hroots.append_left pending)
  obtain ⟨attached, hev, forest'⟩ := hact p.session _ h.attached forest
  exact h.acted attached hev (forest'.perm hroots.symm)

theorem perm_pending {pending' : List Payload} (h : p.Holds pending)
    (hperm : pending.Perm pending') : p.Holds pending' :=
  { h with forest := h.forest.perm (hperm.append_right _) }

theorem manual_unset (h : p.Holds pending) :
    ∀ y d, (p.unset x).vars.get? y = some d → d.IsManual := by
  intro y d hy
  have hget : (p.vars.erase x).get? y = some d := hy
  rw [Table.get?_erase] at hget
  split at hget
  · cases hget
  · exact h.manual y d hget

/-- What is taken out of a variable is between two owners. -/
theorem unset (h : p.Holds pending) (found : p.vars.get? x = some c) :
    (p.unset x).Holds (c.payload :: pending) where
  attached := h.attached
  manual := h.manual_unset
  history := h.history
  kept := h.kept
  forest := by
    exact h.forest.perm (((roots_perm found).append_left pending).trans List.perm_middle)

/-- Nothing can be taken out of a variable that is not there. -/
theorem unset_none (h : p.Holds pending) (missing : p.vars.get? x = none) :
    (p.unset x).Holds pending where
  attached := h.attached
  manual := h.manual_unset
  history := h.history
  kept := h.kept
  forest := by
    have hroots : (p.unset x).roots = p.roots := by
      unfold roots Program.unset
      rw [Table.erase_of_get?_none missing]
    rw [hroots]
    exact h.forest

/-- What is put into a variable has an owner again. -/
theorem set (h : (p.unset x).Holds (c.payload :: pending)) (hmode : c.IsManual) :
    (p.set x c).Holds pending where
  attached := h.attached
  manual y d hy := by
    have hget : (p.vars.insert x c).get? y = some d := hy
    rw [Table.get?_insert] at hget
    split at hget
    · obtain rfl := Option.some.inj hget
      exact hmode
    · next hne => exact h.manual y d ((Table.get?_erase_of_ne _ hne).trans hget)
  history := h.history
  kept := h.kept
  forest := h.forest.perm List.perm_middle.symm

/-- What a variable held before is released when something else is put into it. -/
theorem put (h : p.Holds [c.payload]) (hmode : c.IsManual) : (p.put x c).Holds [] := by
  unfold Program.put
  split
  · next old found =>
    -- the new container comes in first, so the old one is between two owners until it is released
    have hset : (p.set x c).Holds [old.payload] :=
      ((h.unset found).perm_pending (List.Perm.swap ..)).set hmode
    exact hset.perform (.release (h.manual x old found) fun _ => [])
  · next missing => exact (h.unset_none missing).set hmode

/-- What an action makes is put into a variable. -/
theorem store {act : Act Container} (h : p.Holds []) (hact : Moves [] act Moves.made)
    (hmode : Returns act Container.IsManual) : (p.store x act).Holds [] := by
  have h' := h.perform hact
  unfold Program.store
  rcases hout : p.perform act with ⟨_ | c, q⟩
  · rw [hout] at h'
    exact h'
  · rw [hout] at h'
    exact put h' (hmode p.session c (congrArg Prod.fst hout))

/-- The container in a variable is changed by an action that keeps one if it fails. -/
theorem update {act : Container → Act Container} (h : p.Holds [])
    (hact : ∀ c : Container, c.IsManual → Moves [c.payload] (act c) fun r => [(r.getD c).payload])
    (hmode : ∀ c : Container, c.IsManual → Returns (act c) Container.IsManual) :
    (p.update x act).Holds [] := by
  unfold Program.update
  split
  · next c found =>
    have manual := h.manual x c found
    have h' := (h.unset found).perform (hact c manual)
    refine set (h'.unset_none (Table.get?_erase_self ..)) ?_
    · have hreturns := hmode c manual (p.unset x).session
      show ((outcome (act c) (p.unset x).session).1.getD c).IsManual
      cases hout : (outcome (act c) (p.unset x).session).1 with
      | none => exact manual
      | some d => exact hreturns d hout
  · exact h

/-- What has been given away has an owner, whoever that is. -/
theorem give (h : p.Holds []) (hand : Container → Call → Call) : (p.give x hand).Holds [] := by
  unfold Program.give
  split
  · next c found =>
    have h' := h.unset found
    have hroots : (c.payload :: (p.unset x).roots).Perm
        ((p.unset x).vars.entries.map (·.2.payload) ++ (c :: p.given).map (·.payload)) :=
      List.perm_middle.symm
    exact ⟨h'.attached, h'.manual, h'.history, h'.kept, h'.forest.perm hroots⟩
  · exact h

/-- **One operation** leaves nothing between two owners. -/
theorem step (h : p.Holds []) (op : Op) : (p.step op).Holds [] := by
  cases op with
  | newArray x type dims => exact h.store (.newArray type dims) (.newArray type dims)
  | arrayOf x type dims values =>
    exact h.store (.arrayOf type dims values) (.arrayOf type dims values)
  | newList x => exact h.store .newCollection .newCollection
  | empty x kind =>
    refine put ?_ rfl
    exact { h with forest := (Forest.cons_iff_of_asset_none (Moves.asset_payload_null rfl)).mpr h.forest }
  | convert x y target method tolerance =>
    simp only [Program.step]
    split
    · split
      · exact h.store (.convert _ target method tolerance) (.convert _ target method tolerance)
      · exact h
    · exact h
  | copy x y =>
    simp only [Program.step]
    split
    · exact h.store (.copy _) (.copy _)
    · exact h
  | assign x y =>
    simp only [Program.step]
    split
    · next other found =>
      refine h.update (fun c hc => ?_) (fun c hc => ?_)
      · split
        · exact .replaceBy hc other
        · exact Moves.pure c fun r => [(r.getD c).payload]
      · split
        · exact .replaceBy hc other
        · exact .pure hc
    · exact h
  | take x y =>
    simp only [Program.step]
    split
    · next c found =>
      have hleft : ((p.unset y).Holds (c.moveOut.2.payload :: [c.payload])) := by
        have h' := h.unset found
        exact { h' with forest := (Forest.cons_iff_of_asset_none (Moves.asset_payload_null rfl)).mpr h'.forest }
      exact put (hleft.set (h.manual y c found)) (h.manual y c found)
    · exact h
  | reset x => exact h.update (fun c hc => .clear hc) (fun c hc => .clear hc)
  | drop x =>
    simp only [Program.step]
    split
    · next c found => exact (h.unset found).perform (.release (h.manual x c found) fun _ => [])
    · exact h
  | intoRaw x => exact h.give fun _ call => call
  | setContainer x => exact h.give fun c call => call.setResult c.payload
  | pushValue list name v plain =>
    simp only [Program.step]
    split
    · next l found =>
      split
      · next hkind =>
        have hplain : v.payload.asset = none := by
          cases v <;> first | rfl | cases plain
        exact h.perform_at found (.pushValue hkind hplain name)
      · exact h
    · exact h
  | push list name x other =>
    simp only [Program.step]
    split
    · next l c foundl foundc =>
      split
      · next hkind =>
        have foundl' : (p.unset x).vars.get? list = some l :=
          (Table.get?_erase_of_ne _ (Ne.symm other)).trans foundl
        exact (h.unset foundc).perform_at foundl' (.pushContainer hkind (h.manual x c foundc) name)
      · exact h
    · exact h

/-- **Any operations** leave nothing between two owners. -/
theorem run (h : p.Holds []) (ops : List Op) : (p.run ops).Holds [] := by
  induction ops generalizing p with
  | nil => exact h
  | cons op rest ih => exact ih (h.step op)

end Holds

/-! ## Dropping everything -/

theorem vars_drop (p : Program) (x y : Nat) :
    (p.step (.drop x)).vars.get? y = if y = x then none else p.vars.get? y := by
  simp only [step]
  split
  · exact Table.get?_erase ..
  · next missing =>
    split
    · next hy => rw [hy]; exact missing
    · rfl

theorem given_drop (p : Program) (x : Nat) : (p.step (.drop x)).given = p.given := by
  simp only [step]
  split <;> rfl

/-- Dropping variables empties them and gives nothing away. -/
theorem run_drop (p : Program) (xs : List Nat) :
    (∀ y, (p.run (xs.map .drop)).vars.get? y = if y ∈ xs then none else p.vars.get? y) ∧
      (p.run (xs.map .drop)).given = p.given := by
  induction xs generalizing p with
  | nil => exact ⟨fun y => by simp [run], rfl⟩
  | cons x rest ih =>
    obtain ⟨hvars, hgiven⟩ := ih (p.step (.drop x))
    refine ⟨fun y => ?_, hgiven.trans (given_drop p x)⟩
    refine (hvars y).trans ?_
    rw [vars_drop]
    by_cases hy : y = x
    · simp [hy]
    · simp [hy]

/-- Nothing is left in variables after everything has been dropped. -/
theorem dropAll_spec (p : Program) :
    p.dropAll.vars.entries = [] ∧ p.dropAll.given = p.given := by
  obtain ⟨hvars, hgiven⟩ := run_drop p (p.vars.entries.map Prod.fst)
  rw [List.map_map] at hvars hgiven
  refine ⟨List.eq_nil_iff_forall_not_mem.mpr ?_, hgiven⟩
  rintro ⟨x, c⟩ hmem
  have hget : p.dropAll.vars.get? x = some c := Table.mem_entries_iff.mp hmem
  have hvar := hvars x
  split at hvar
  · cases hget.symm.trans hvar
  · next hx =>
    have hold : p.vars.get? x = some c := hvar.symm.trans hget
    exact hx (List.mem_map_of_mem (Table.mem_entries_of_get? hold))

/-! ## What holds in every state -/

/-- **Everything is accounted for.** Owners are the variables, what has been given away, and the nodes
    of live collections, each counted as often as it owns something. -/
structure Accounted (p : Program) : Prop where
  /-- The library owns what is in the variables. -/
  manual : ∀ x c, p.vars.get? x = some c → c.mode = .manual
  /-- What is live has one owner, and what is not live has none. -/
  one_owner : ∀ a, p.host.stores a = true → owners (p.roots ++ held p.host.collections) a = 1
  no_owner : ∀ a, p.host.stores a = false → owners (p.roots ++ held p.host.collections) a = 0
  /-- No collection contains itself. -/
  acyclic : ∀ c, Acyclic p.host.collections c
  /-- What has ever been given a number is live and not freed or gone and freed once, and no share of
      it has been given back. -/
  recorded : ∃ made, History made p.host
  freed_once : ∀ made, History made p.host → ∀ h u, (h, u) ∈ made → u = .array ∨ u = .collection →
    ((p.host.names u h = true ∧ p.host.freesOf h = 0) ∨
      (p.host.names u h = false ∧ p.host.freesOf h = 1)) ∧ (p.host.releasesOf h).disowns = 0
  /-- When everything has been dropped, what is live is what has been given away with all that it
      owns. -/
  emptied : p.dropAll.vars.entries = [] ∧ p.dropAll.given = p.given
  left : ∀ a, p.dropAll.host.stores a = true ↔
    ∃ q, Owned p.dropAll.host.collections (p.given.map (·.payload)) q ∧ q.asset = some a

theorem Holds.accounted {p : Program} (h : p.Holds []) : p.Accounted where
  manual := h.manual
  one_owner a ha := (h.forest.single a).trans (by rw [ha]; rfl)
  no_owner a ha := (h.forest.single a).trans (by rw [ha]; rfl)
  acyclic := h.forest.acyclic
  recorded := h.history
  freed_once made past k u hmade hu := ⟨past.sound.frees_owned hmade hu, h.kept k⟩
  emptied := dropAll_spec p
  left a := by
    -- after all drops the roots are what has been given away, and a forest is what its roots own
    have forest := (h.run (p.vars.entries.map fun e => .drop e.1)).forest
    obtain ⟨hvars, hgiven⟩ := dropAll_spec p
    have hroots : p.dropAll.roots = p.given.map (·.payload) := by
      rw [roots, hvars, hgiven, List.map_nil, List.nil_append]
    rw [← hroots]
    exact forest.stores_iff

/-- **Every state of every program is accounted for**, whatever operations have led to it. -/
theorem run_accounted (s : Session) (call : Call) (ops : List Op) :
    ((start s call).run ops).Accounted :=
  ((Holds.start s call).run ops).accounted

end Program

end Marshal
