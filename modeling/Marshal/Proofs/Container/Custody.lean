import Mathlib.Data.List.Count
import Mathlib.Data.List.Perm.Subperm
import Marshal.Proofs.Container.Program

/-!
# `Proofs.Container.Custody` — arrays that stay the host's

A program may hold arrays of the host in containers that do not own them. Automatic and constant
ones leave the host alone. A shared one gives back a share when it is reset or ends its life, so
what the host counts for an array is how often a shared container has let go of it, and the array
stays live whatever the program does. Giving back stops at zero, so counting alone does not tell how
many shares are left; it does if every shared container has been given a share of its own, because
then the containers that still hold the array are never more than the shares that are left.

## Contents

* `HoldOp`, `Program.hold`, `Program.holdAll` — operations on containers of the host's arrays;
* `Program.ended`, `Program.givenBack` — the containers that let go of what they hold;
* `Host.letGo`, `Host.letGoAll` — what that does to the host;
* `Program.Holding`, `session_hold`, `holders_hold` — the invariant, and what one operation does;
* `counts_hold`, `counts_holdAll`, `shareCount_holdAll` — what the host counts, over a run;
* `EachOwnShare`, `Program.held_array_accounted` — a share for each shared container.
-/

namespace Marshal

open Marshal.Host

theorem countP_cons_toNat {α : Type} (p : α → Bool) (a : α) (l : List α) :
    (a :: l).countP p = l.countP p + (p a).toNat := by
  rw [List.countP_cons]
  cases p a <;> rfl

/-! ## Operations -/

/-- What a program does with containers of arrays that are not its own. A container can be made of
any handle: null, one that names nothing, or one of an array of the other family. In between the
host adds shares and makes arrays. -/
inductive HoldOp
  | adopt (x : Nat) (family : Family) (mode : Passing) (h : Handle) (foreign : mode ≠ .manual)
  | empty (x : Nat) (family : Family) (mode : Passing) (foreign : mode ≠ .manual)
  | take (x y : Nat)
  | reset (x : Nat)
  | drop (x : Nat)
  | intoRaw (x : Nat)
  | pass (x : Nat)
  | look (x : Nat) (reading : Container → Session → Except Fault Unit)
  | share (h : Handle)
  | make (type : ElementType) (dims : List Int)

namespace HoldOp

/-- Whether a shared container is made of a handle. -/
def adopts (h : Handle) : HoldOp → Bool
  | adopt _ _ mode k _ => mode == .shared && k == h
  | _ => false

/-- Whether the host adds a share to what a handle names. -/
def shares (h : Handle) : HoldOp → Bool
  | share k => k == h
  | _ => false

/-- Whether it is the host that acts. -/
def isHosts : HoldOp → Bool
  | share _ | make _ _ => true
  | _ => false

end HoldOp

/-- Whether a container holds a share of what a handle names. -/
def Container.holdsShare (h : Handle) (c : Container) : Bool := c.mode == .shared && c.handle == h

namespace Program

/-- The program with another state of its host. -/
def withHost (p : Program) (w : Host) : Program :=
  { p with session := { p.session with host := w } }

/-- One operation. Those that programs have for containers of their own are the same here. -/
def hold (p : Program) : HoldOp → Program
  | .adopt x family mode h _ => p.put x ⟨family.containerKind, mode, h⟩
  | .empty x family mode _ => p.put x (.empty family.containerKind mode)
  | .take x y => p.step (.take x y)
  | .reset x => p.step (.reset x)
  | .drop x => p.step (.drop x)
  | .intoRaw x => p.step (.intoRaw x)
  | .pass x =>
    match p.vars.get? x with
    | some c => { p with call := p.call.setResult c.payload }
    | none => p
  | .look x reading =>
    match p.vars.get? x with
    | some c => (p.perform (Act.read (reading c))).2
    | none => p
  | .share h => p.withHost (p.host.shareArray h)
  | .make type dims => p.withHost (p.host.newArray type dims).2

/-- Operations, one after the other. -/
def holdAll (p : Program) (ops : List HoldOp) : Program := ops.foldl hold p

/-- The containers that an operation resets or whose life it ends. A container ends its life when it
is dropped, and when another one is put into its variable. -/
def ended (p : Program) : HoldOp → List Container
  | .adopt x _ _ _ _ | .empty x _ _ _ | .reset x | .drop x => (p.vars.get? x).toList
  | .take x y =>
    match p.vars.get? y with
    | some c => ((p.set y c.moveOut.2).vars.get? x).toList
    | none => []
  | _ => []

/-- How often a shared container is reset or ends its life while it holds a handle. -/
def givenBack (h : Handle) (p : Program) : List HoldOp → Nat
  | [] => 0
  | op :: rest => (p.ended op).countP (·.holdsShare h) + givenBack h (p.hold op) rest

/-- The variables that hold a share of what a handle names. -/
def holders (h : Handle) (p : Program) : Nat := p.vars.entries.countP (·.2.holdsShare h)

end Program

/-! ## Letting go -/

/-- The host after a container that is not the library's has let go of what it holds. -/
def Host.letGo (w : Host) (c : Container) : Host :=
  if c.mode = .shared ∧ c.handle ≠ Handle.null then w.disownArray c.handle else w

/-- The host after several containers have let go, one after the other. -/
def Host.letGoAll (w : Host) (cs : List Container) : Host := cs.foldl letGo w

/-- A container of an array that is not the library's. -/
structure Container.IsForeign (c : Container) : Prop where
  mode : c.mode ≠ .manual
  kind : c.kind ≠ .collection

theorem Container.IsForeign.cleared {c : Container} (foreign : c.IsForeign) :
    Container.IsForeign { c with handle := Handle.null } := ⟨foreign.mode, foreign.kind⟩

theorem Container.holdsShare_iff {h : Handle} {c : Container} :
    c.holdsShare h = true ↔ c.mode = .shared ∧ c.handle = h := by
  simp [holdsShare]

/-- An empty container holds a share of nothing that there is. -/
theorem Container.holdsShare_null {h : Handle} (hnull : h ≠ Handle.null) (kind : ContainerKind)
    (mode : Passing) : Container.holdsShare h ⟨kind, mode, Handle.null⟩ = false := by
  have : (Handle.null == h) = false := by simpa using Ne.symm hnull
  simp [holdsShare, this]

/-- **Releasing what is not the library's** lets go of it, and never fails. -/
theorem Container.outcome_release {c : Container} {s : Session} (attached : s.attached = true)
    (foreign : c.IsForeign) :
    outcome c.release s = (some (), { s with host := s.host.letGo c }) := by
  unfold Container.release Act.releaseHandle Host.letGo
  by_cases hnull : c.handle = Handle.null
  · rw [if_pos hnull, if_neg fun h => h.2 hnull]
    rfl
  · rw [if_neg hnull]
    obtain ⟨kind, mode, h⟩ := c
    cases mode with
    | automatic => rfl
    | constant => rfl
    | manual => exact absurd rfl foreign.mode
    | shared =>
      rw [if_pos ⟨rfl, hnull⟩]
      cases kind with
      | collection => exact absurd rfl foreign.kind
      | tensor => exact outcome_request attached () _
      | numericArray => exact outcome_request attached () _

/-- What is counted when so many more shares have been given back. -/
def Releases.givingBack (r : Releases) (shares : Nat) : Releases :=
  { r with disowns := r.disowns + UInt32.ofNat shares }

theorem Releases.givingBack_zero (r : Releases) : r.givingBack 0 = r :=
  congrArg (Releases.mk r.frees) (UInt32.add_zero _)

theorem Releases.givingBack_add (r : Releases) (m n : Nat) :
    r.givingBack (m + n) = (r.givingBack m).givingBack n := by
  simp only [givingBack, UInt32.ofNat_add, UInt32.add_assoc]

namespace Host

variable (w : Host) {h : Handle}

theorem releasesOf_disownArray (k : Handle) : (w.disownArray k).releasesOf h =
    if h = k then { w.releasesOf h with disowns := (w.releasesOf h).disowns + 1 }
    else w.releasesOf h := by
  rw [disownArray, releasesOf_recordDisown]
  by_cases hh : h = k
  · rw [if_pos hh, if_pos hh, hh]
    rfl
  · rw [if_neg hh, if_neg hh]
    rfl

/-- A share that is given back is one less, unless there is none. -/
theorem shareCount_disownArray (k : Handle) : (w.disownArray k).shareCount h =
    if h = k then max (w.shareCount h - 1) 0 else w.shareCount h := by
  show ((((w.arrays.modify k _).get? h).map Dense.shares).getD 0 : Int) = _
  rw [Table.get?_modify]
  by_cases hh : h = k
  · rw [if_pos hh, if_pos hh, hh, shareCount]
    cases w.arrays.get? k <;> rfl
  · rw [if_neg hh, if_neg hh]
    rfl

/-- A share that is added is one more. -/
theorem shareCount_shareArray (live : w.arrays.contains h = true) (k : Handle) :
    (w.shareArray k).shareCount h = w.shareCount h + (k == h).toNat := by
  obtain ⟨a, ha⟩ := Table.contains_iff.mp live
  show ((((w.arrays.modify k _).get? h).map Dense.shares).getD 0 : Int) = _
  rw [Table.get?_modify, shareCount, ha]
  by_cases hh : k = h
  · rw [if_pos hh.symm, beq_iff_eq.mpr hh, hh, ha]
    rfl
  · rw [if_neg (Ne.symm hh), beq_eq_false_iff_ne.mpr hh]
    exact (Int.add_zero _).symm

variable (c : Container)

/-- Letting go of a handle that is not null gives back a share of what a container holds a share of,
and of nothing else. -/
theorem letGo_cases (hnull : h ≠ Handle.null) :
    (c.holdsShare h = true ∧ w.letGo c = w.disownArray h) ∨
      (c.holdsShare h = false ∧ (w.letGo c = w ∨ ∃ k, h ≠ k ∧ w.letGo c = w.disownArray k)) := by
  unfold letGo
  by_cases hmode : c.mode = .shared
  · by_cases hh : c.handle = h
    · left
      rw [if_pos ⟨hmode, hh ▸ hnull⟩, hh]
      exact ⟨Container.holdsShare_iff.mpr ⟨hmode, hh⟩, rfl⟩
    · right
      refine ⟨Bool.eq_false_iff.mpr fun hholds => hh (Container.holdsShare_iff.mp hholds).2, ?_⟩
      split
      · exact .inr ⟨c.handle, Ne.symm hh, rfl⟩
      · exact .inl rfl
  · right
    rw [if_neg fun hlet => hmode hlet.1]
    refine ⟨Bool.eq_false_iff.mpr fun hholds => ?_, .inl rfl⟩
    exact hmode (Container.holdsShare_iff.mp hholds).1

/-- Letting go makes no array live or dead. -/
theorem contains_arrays_letGo (k : Handle) :
    (w.letGo c).arrays.contains k = w.arrays.contains k := by
  unfold letGo
  split
  · exact Table.contains_modify ..
  · rfl

/-- **Letting go of a share is counted**, and no free is. -/
theorem releasesOf_letGo (hnull : h ≠ Handle.null) :
    (w.letGo c).releasesOf h = (w.releasesOf h).givingBack (c.holdsShare h).toNat := by
  rcases w.letGo_cases c hnull with ⟨hholds, hlet⟩ | ⟨hholds, hlet | ⟨k, hk, hlet⟩⟩
  · rw [hlet, hholds, releasesOf_disownArray, if_pos rfl]
    rfl
  · rw [hlet, hholds, Bool.toNat_false, Releases.givingBack_zero]
  · rw [hlet, hholds, Bool.toNat_false, Releases.givingBack_zero, releasesOf_disownArray, if_neg hk]

theorem shareCount_letGo (hnull : h ≠ Handle.null) : (w.letGo c).shareCount h =
    if c.holdsShare h then max (w.shareCount h - 1) 0 else w.shareCount h := by
  rcases w.letGo_cases c hnull with ⟨hholds, hlet⟩ | ⟨hholds, hlet | ⟨k, hk, hlet⟩⟩
  · rw [hlet, if_pos hholds, shareCount_disownArray, if_pos rfl]
  · rw [hlet, hholds]
    rfl
  · rw [hlet, hholds, shareCount_disownArray, if_neg hk]
    rfl

theorem History.letGo {made : List (Handle × Use)} {w : Host} (past : History made w)
    (c : Container) : History made (w.letGo c) := by
  unfold Host.letGo
  split
  · exact past.disown c.handle
  · exact past

variable (cs : List Container)

theorem History.letGoAll {made : List (Handle × Use)} {w : Host} (past : History made w) :
    History made (w.letGoAll cs) := by
  induction cs generalizing w with
  | nil => exact past
  | cons c rest ih => exact ih (past.letGo c)

theorem contains_arrays_letGoAll (k : Handle) :
    (w.letGoAll cs).arrays.contains k = w.arrays.contains k := by
  induction cs generalizing w with
  | nil => rfl
  | cons c rest ih => exact (ih (w.letGo c)).trans (w.contains_arrays_letGo c k)

theorem releasesOf_letGoAll (hnull : h ≠ Handle.null) :
    (w.letGoAll cs).releasesOf h = (w.releasesOf h).givingBack (cs.countP (·.holdsShare h)) := by
  induction cs generalizing w with
  | nil => exact (Releases.givingBack_zero _).symm
  | cons c rest ih =>
    refine (ih (w.letGo c)).trans ?_
    rw [releasesOf_letGo w c hnull, countP_cons_toNat, Nat.add_comm, Releases.givingBack_add]

/-- As long as there are shares, each one that is let go of is one less. -/
theorem shareCount_letGoAll (hnull : h ≠ Handle.null)
    (enough : cs.countP (·.holdsShare h) ≤ w.shareCount h) :
    (w.letGoAll cs).shareCount h = w.shareCount h - cs.countP (·.holdsShare h) := by
  induction cs generalizing w with
  | nil => exact (Int.sub_zero _).symm
  | cons c rest ih =>
    rw [countP_cons_toNat] at enough ⊢
    have hone : (w.letGo c).shareCount h = w.shareCount h - (c.holdsShare h).toNat := by
      rw [shareCount_letGo w c hnull]
      cases hholds : c.holdsShare h with
      | true =>
        rw [hholds, Bool.toNat_true] at enough
        exact Int.max_eq_left (by omega)
      | false => exact (Int.sub_zero _).symm
    have hrest := ih (w.letGo c) (by omega)
    show ((w.letGo c).letGoAll rest).shareCount h = _
    omega

/-- Containers that are not shared leave the host as it is. -/
theorem letGoAll_of_not_shared (unshared : ∀ c ∈ cs, c.mode ≠ .shared) : w.letGoAll cs = w := by
  induction cs with
  | nil => rfl
  | cons c rest ih =>
    have hc : w.letGo c = w := if_neg fun h => unshared c List.mem_cons_self h.1
    show (w.letGo c).letGoAll rest = w
    rw [hc]
    exact ih fun d hd => unshared d (List.mem_cons_of_mem c hd)

/-- Shares never go below zero. -/
theorem shareCount_letGoAll_nonneg (hnull : h ≠ Handle.null) (nonneg : 0 ≤ w.shareCount h) :
    0 ≤ (w.letGoAll cs).shareCount h := by
  induction cs generalizing w with
  | nil => exact nonneg
  | cons c rest ih =>
    refine ih (w.letGo c) ?_
    rw [shareCount_letGo w c hnull]
    split
    · exact Int.le_max_right ..
    · exact nonneg

end Host

/-! ## One operation -/

namespace Program

/-- **A program that holds what is not its own**, with a host that has come about in the way that
hosts do. -/
structure Holding (p : Program) : Prop where
  attached : p.session.attached = true
  foreign : ∀ x c, p.vars.get? x = some c → c.IsForeign
  history : ∃ made, History made p.host

variable {p : Program}

namespace Holding

theorem set (holding : p.Holding) (x : Nat) {c : Container} (foreign : c.IsForeign) :
    (p.set x c).Holding where
  attached := holding.attached
  foreign y d hd := by
    have hget : (p.vars.insert x c).get? y = some d := hd
    rw [Table.get?_insert] at hget
    split at hget
    · exact Option.some.inj hget ▸ foreign
    · exact holding.foreign y d hget
  history := holding.history

theorem unset (holding : p.Holding) (x : Nat) : (p.unset x).Holding where
  attached := holding.attached
  foreign y d hd := by
    have hget : (p.vars.erase x).get? y = some d := hd
    rw [Table.get?_erase] at hget
    split at hget
    · cases hget
    · exact holding.foreign y d hget
  history := holding.history

theorem withHost (holding : p.Holding) {w : Host} (history : ∃ made, History made w) :
    (p.withHost w).Holding where
  attached := holding.attached
  foreign := holding.foreign
  history := history

end Holding

/-! ### What happens to the program -/

/-- A container that is put into a variable takes the place of one that lets go. -/
theorem put_eq (holding : p.Holding) (x : Nat) (c : Container) :
    p.put x c = (p.set x c).withHost (p.host.letGoAll (p.vars.get? x).toList) := by
  unfold put
  cases found : p.vars.get? x with
  | none => rfl
  | some old =>
    show { p.set x c with session := (outcome old.release p.session).2 } = _
    rw [Container.outcome_release holding.attached (holding.foreign x old found)]
    rfl

theorem drop_eq (holding : p.Holding) {x : Nat} {c : Container} (found : p.vars.get? x = some c) :
    p.step (.drop x) = (p.unset x).withHost (p.host.letGo c) := by
  simp only [step, found]
  show { p.unset x with session := (outcome c.release p.session).2 } = _
  rw [Container.outcome_release holding.attached (holding.foreign x c found)]
  rfl

/-- A container that is reset lets go, and holds null from then on. -/
theorem reset_eq (holding : p.Holding) {x : Nat} {c : Container} (found : p.vars.get? x = some c) :
    p.step (.reset x) =
      ((p.unset x).set x { c with handle := Handle.null }).withHost (p.host.letGo c) := by
  have hclear : outcome c.clear p.session =
      (some { c with handle := Handle.null }, { p.session with host := p.host.letGo c }) := by
    have hrelease : outcome (Act.releaseHandle c.kind c.mode c.handle) p.session = _ :=
      Container.outcome_release holding.attached (holding.foreign x c found)
    rw [Container.clear, outcome_bind, hrelease]
    rfl
  simp only [step, update, found, perform]
  show Program.set { p.unset x with session := (outcome c.clear p.session).2 } x
    ((outcome c.clear p.session).1.getD c) = _
  rw [hclear]
  rfl

theorem take_eq {x y : Nat} {c : Container} (found : p.vars.get? y = some c) :
    p.step (.take x y) = (p.set y c.moveOut.2).put x c := by
  simp only [step, found]
  rfl

theorem Holding.put (holding : p.Holding) (x : Nat) {c : Container} (foreign : c.IsForeign) :
    (p.put x c).Holding := by
  rw [put_eq holding]
  obtain ⟨made, past⟩ := holding.history
  exact (holding.set x foreign).withHost ⟨made, past.letGoAll _⟩

/-- What is left in a variable when its contents are moved out is not the library's either. -/
theorem Holding.set_moveOut (holding : p.Holding) {y : Nat} {c : Container}
    (found : p.vars.get? y = some c) : (p.set y c.moveOut.2).Holding :=
  holding.set y (holding.foreign y c found).cleared

/-- **One operation** leaves a program that holds what is not its own. -/
theorem Holding.hold (holding : p.Holding) (op : HoldOp) : (p.hold op).Holding := by
  obtain ⟨made, past⟩ := holding.history
  cases op with
  | adopt x family mode h foreign => exact holding.put x ⟨foreign, by cases family <;> nofun⟩
  | empty x family mode foreign => exact holding.put x ⟨foreign, by cases family <;> nofun⟩
  | take x y =>
    simp only [Program.hold]
    cases found : p.vars.get? y with
    | none =>
      simp only [step, found]
      exact holding
    | some c =>
      rw [take_eq found]
      exact (holding.set_moveOut found).put x (holding.foreign y c found)
  | reset x =>
    simp only [Program.hold]
    cases found : p.vars.get? x with
    | none =>
      simp only [step, update, found]
      exact holding
    | some c =>
      rw [reset_eq holding found]
      exact ((holding.unset x).set x (holding.foreign x c found).cleared).withHost
        ⟨made, past.letGo c⟩
  | drop x =>
    simp only [Program.hold]
    cases found : p.vars.get? x with
    | none =>
      simp only [step, found]
      exact holding
    | some c =>
      rw [drop_eq holding found]
      exact (holding.unset x).withHost ⟨made, past.letGo c⟩
  | intoRaw x =>
    simp only [Program.hold, step, give]
    cases p.vars.get? x with
    | none => exact holding
    | some c => exact ⟨holding.attached, (holding.unset x).foreign, holding.history⟩
  | pass x =>
    simp only [Program.hold]
    cases p.vars.get? x with
    | none => exact holding
    | some c => exact ⟨holding.attached, holding.foreign, holding.history⟩
  | look x reading =>
    simp only [Program.hold]
    cases p.vars.get? x with
    | none => exact holding
    | some c =>
      show Program.Holding { p with session := (outcome (Act.read (reading c)) p.session).2 }
      rw [outcome_read]
      exact holding
  | share h => exact holding.withHost ⟨_, past.change (.modifyArray p.host h _)⟩
  | make type dims =>
    obtain ⟨more, hmore⟩ := Evolves.addArray? p.host (Dense.create? type dims)
    exact holding.withHost ⟨_, past.changes hmore⟩

theorem Holding.holdAll (holding : p.Holding) (ops : List HoldOp) : (p.holdAll ops).Holding := by
  induction ops generalizing p with
  | nil => exact holding
  | cons op rest ih => exact ih (holding.hold op)

/-- **What the library does to the host.** The containers that are reset or whose life ends let go
of what they hold, and nothing else happens. -/
theorem session_hold (holding : p.Holding) {op : HoldOp} (library : op.isHosts = false) :
    (p.hold op).session = { p.session with host := p.host.letGoAll (p.ended op) } := by
  cases op with
  | adopt x family mode h _ => exact congrArg Program.session (put_eq holding x _)
  | empty x family mode _ => exact congrArg Program.session (put_eq holding x _)
  | take x y =>
    simp only [hold, ended]
    cases found : p.vars.get? y with
    | none => simp only [step, found]; rfl
    | some c =>
      rw [take_eq found, put_eq (holding.set_moveOut found)]
      rfl
  | reset x =>
    simp only [hold, ended]
    cases found : p.vars.get? x with
    | none => simp only [step, update, found]; rfl
    | some c => rw [reset_eq holding found]; rfl
  | drop x =>
    simp only [hold, ended]
    cases found : p.vars.get? x with
    | none => simp only [step, found]; rfl
    | some c => rw [drop_eq holding found]; rfl
  | intoRaw x =>
    simp only [hold, ended, step, give]
    cases p.vars.get? x <;> rfl
  | pass x =>
    simp only [hold, ended]
    cases p.vars.get? x <;> rfl
  | look x reading =>
    simp only [hold, ended]
    cases p.vars.get? x with
    | none => rfl
    | some c => exact congrArg Prod.snd (outcome_read (reading c) p.session)
  | share h => cases library
  | make type dims => cases library

/-! ### Who holds shares -/

section

variable (h : Handle)

theorem holders_unset (x : Nat) : (p.unset x).holders h +
    (p.vars.get? x).toList.countP (·.holdsShare h) = p.holders h := by
  unfold holders unset
  cases found : p.vars.get? x with
  | none =>
    rw [Table.erase_of_get?_none found]
    rfl
  | some c =>
    rw [(Table.perm_entries found).countP_eq, List.countP_cons]
    exact congrArg _ List.countP_singleton

theorem holders_set (x : Nat) (c : Container) : (p.set x c).holders h +
    (p.vars.get? x).toList.countP (·.holdsShare h) = p.holders h + (c.holdsShare h).toNat := by
  have hset : (p.set x c).holders h = (p.unset x).holders h + (c.holdsShare h).toNat :=
    countP_cons_toNat _ (x, c) (p.vars.erase x).entries
  rw [hset, Nat.add_right_comm, holders_unset]

theorem holders_put (holding : p.Holding) (x : Nat) (c : Container) : (p.put x c).holders h +
    (p.vars.get? x).toList.countP (·.holdsShare h) = p.holders h + (c.holdsShare h).toNat := by
  rw [put_eq holding]
  exact holders_set h x c

end

/-- **Shares are held by those they were given to.** After an operation no more containers hold a
share than before, but for one that is made of the handle and without those that have let go. -/
theorem holders_hold {h : Handle} (hnull : h ≠ Handle.null) (holding : p.Holding) (op : HoldOp) :
    (p.hold op).holders h + (p.ended op).countP (·.holdsShare h) ≤
      p.holders h + (op.adopts h).toNat := by
  cases op with
  | adopt x family mode k _ => exact Nat.le_of_eq (holders_put h holding x _)
  | empty x family mode _ =>
    have hput := holders_put h holding x (.empty family.containerKind mode)
    rw [Container.empty, Container.holdsShare_null hnull] at hput
    exact Nat.le_of_eq hput
  | take x y =>
    simp only [hold, ended]
    cases found : p.vars.get? y with
    | none =>
      simp only [step, found]
      exact Nat.le_refl _
    | some c =>
      -- the share goes from one variable to the other
      have hset := holders_set (p := p) h y c.moveOut.2
      have hput := holders_put h (holding.set_moveOut found) x c
      have hleft : c.moveOut.2.holdsShare h = false := Container.holdsShare_null hnull c.kind c.mode
      rw [found, Option.toList_some, countP_cons_toNat, List.countP_nil, Nat.zero_add, hleft]
        at hset
      rw [take_eq found]
      exact Nat.le_of_eq (hput.trans hset)
  | reset x =>
    simp only [hold, ended]
    cases found : p.vars.get? x with
    | none =>
      simp only [step, update, found]
      exact Nat.le_refl _
    | some c =>
      have hunset := holders_unset (p := p) h x
      have hset := holders_set (p := p.unset x) h x { c with handle := Handle.null }
      rw [Container.holdsShare_null hnull] at hset
      rw [found] at hunset
      rw [reset_eq holding found]
      show ((p.unset x).set x { c with handle := Handle.null }).holders h + _ ≤ _
      exact hunset ▸ Nat.add_le_add_right (Nat.le_trans (Nat.le_add_right ..) (Nat.le_of_eq hset)) _
  | drop x =>
    simp only [hold, ended]
    cases found : p.vars.get? x with
    | none =>
      simp only [step, found]
      exact Nat.le_refl _
    | some c =>
      rw [drop_eq holding found, ← found]
      exact Nat.le_of_eq (holders_unset h x)
  | intoRaw x =>
    simp only [hold, ended, step, give]
    cases found : p.vars.get? x with
    | none => exact Nat.le_refl _
    | some c => exact Nat.le_trans (Nat.le_add_right ..) (Nat.le_of_eq (holders_unset h x))
  | pass x =>
    simp only [hold, ended]
    cases p.vars.get? x <;> exact Nat.le_refl _
  | look x reading =>
    simp only [hold, ended]
    cases p.vars.get? x <;> exact Nat.le_refl _
  | share k => exact Nat.le_refl _
  | make type dims => exact Nat.le_refl _

/-! ## What the host counts -/

/-- Another array that the host makes is not the one that is live. -/
theorem get?_arrays_make (type : ElementType) (dims : List Int) {w : Host} {h : Handle}
    (hne : h ≠ w.nextId) : (w.newArray type dims).2.arrays.get? h = w.arrays.get? h := by
  unfold Host.newArray Host.addArray?
  cases Dense.create? type dims with
  | none => rfl
  | some a => exact Table.get?_insert_of_ne _ _ hne

theorem releasesOf_make (type : ElementType) (dims : List Int) (w : Host) (h : Handle) :
    (w.newArray type dims).2.releasesOf h = w.releasesOf h := by
  unfold Host.newArray Host.addArray?
  cases Dense.create? type dims <;> rfl

/-- **One operation** lets go of what ends, and nothing else counts. -/
theorem counts_hold {h : Handle} (holding : p.Holding) (live : p.host.arrays.contains h = true)
    (op : HoldOp) :
    (p.hold op).host.arrays.contains h = true ∧
      (p.hold op).host.releasesOf h =
        (p.host.releasesOf h).givingBack ((p.ended op).countP (·.holdsShare h)) ∧
      (0 ≤ p.host.shareCount h → 0 ≤ (p.hold op).host.shareCount h) ∧
      ((p.ended op).countP (·.holdsShare h) ≤ p.host.shareCount h →
        (p.hold op).host.shareCount h = p.host.shareCount h -
          (p.ended op).countP (·.holdsShare h) + (op.shares h).toNat) := by
  obtain ⟨made, past⟩ := holding.history
  have hbounds := past.sound.lt_next (u := .array) live
  have hnull : h ≠ Handle.null := Nat.pos_iff_ne_zero.mp hbounds.1
  cases hop : op.isHosts with
  | false =>
    have hhost : (p.hold op).host = p.host.letGoAll (p.ended op) :=
      congrArg Session.host (session_hold holding hop)
    have hshares : op.shares h = false := by cases op <;> first | rfl | cases hop
    rw [hhost, hshares]
    refine ⟨(contains_arrays_letGoAll ..).trans live, releasesOf_letGoAll _ _ hnull,
      shareCount_letGoAll_nonneg _ _ hnull, fun enough => ?_⟩
    rw [shareCount_letGoAll _ _ hnull enough]
    exact (Int.add_zero _).symm
  | true =>
    cases op with
    | share k =>
      have hshare := shareCount_shareArray (w := p.host) live k
      refine ⟨(Table.contains_modify ..).trans live, (Releases.givingBack_zero _).symm,
        fun nonneg => ?_, fun _ => ?_⟩
      · exact hshare ▸ Int.add_nonneg nonneg (Int.natCast_nonneg _)
      · exact hshare.trans (congrArg (· + _) (Int.sub_zero _).symm)
    | make type dims =>
      have harray := get?_arrays_make type dims (w := p.host) (Nat.ne_of_lt hbounds.2)
      have hcount : (p.hold (.make type dims)).host.shareCount h = p.host.shareCount h :=
        congrArg (fun a => (a.map Dense.shares).getD 0) harray
      refine ⟨?_, ?_, fun nonneg => hcount ▸ nonneg, fun _ => ?_⟩
      · exact (congrArg Option.isSome harray).trans live
      · exact (releasesOf_make type dims p.host h).trans (Releases.givingBack_zero _).symm
      · rw [hcount]
        exact ((Int.add_zero _).trans (Int.sub_zero _)).symm
    | _ => cases hop

/-- **A run.** Every share that is let go of is given back, and none is freed. -/
theorem counts_holdAll {h : Handle} (holding : p.Holding)
    (live : p.host.arrays.contains h = true) (ops : List HoldOp) :
    (p.holdAll ops).host.arrays.contains h = true ∧
      (p.holdAll ops).host.releasesOf h = (p.host.releasesOf h).givingBack (p.givenBack h ops) ∧
      (0 ≤ p.host.shareCount h → 0 ≤ (p.holdAll ops).host.shareCount h) := by
  induction ops generalizing p with
  | nil => exact ⟨live, (Releases.givingBack_zero _).symm, id⟩
  | cons op rest ih =>
    obtain ⟨live', releases, nonneg, -⟩ := counts_hold holding live op
    obtain ⟨livel, releasesl, nonnegl⟩ := ih (holding.hold op) live'
    refine ⟨livel, ?_, nonnegl ∘ nonneg⟩
    rw [releases, ← Releases.givingBack_add] at releasesl
    exact releasesl

/-- Nothing ends when the host adds a share. -/
theorem shares_or_ended (h : Handle) (p : Program) (op : HoldOp) :
    op.shares h = false ∨ p.ended op = [] := by
  cases op <;> first | exact .inl rfl | exact .inr rfl

/-- **A run with enough shares.** If those that hold shares are at no time more than the shares that
are left, then each share that is let go of is one less. -/
theorem shareCount_holdAll {h : Handle} (holding : p.Holding)
    (live : p.host.arrays.contains h = true) (ops : List HoldOp)
    (enough : ∀ before, before <+: ops → (before.countP (·.adopts h) + p.holders h : Int) ≤
      before.countP (·.shares h) + p.host.shareCount h) :
    (p.holdAll ops).host.shareCount h =
      p.host.shareCount h + ops.countP (·.shares h) - p.givenBack h ops := by
  induction ops generalizing p with
  | nil => exact ((Int.sub_zero _).trans (Int.add_zero _)).symm
  | cons op rest ih =>
    obtain ⟨made, past⟩ := holding.history
    have hnull : h ≠ Handle.null :=
      Nat.pos_iff_ne_zero.mp (past.sound.lt_next (u := .array) live).1
    obtain ⟨live', -, -, hcount⟩ := counts_hold holding live op
    have hholders := holders_hold hnull holding op
    have hstep := fun before hbefore =>
      enough (op :: before) (List.cons_prefix_cons.mpr ⟨rfl, hbefore⟩)
    simp only [countP_cons_toNat] at hstep
    -- what the operation lets go of was among those that held shares
    have hended : (p.ended op).countP (·.holdsShare h) ≤ p.host.shareCount h := by
      have hnow := enough [] List.nil_prefix
      have hthen := hstep [] List.nil_prefix
      simp only [List.countP_nil] at hnow hthen
      rcases shares_or_ended h p op with hshares | hnone
      · rw [hshares, Bool.toNat_false] at hthen
        omega
      · rw [hnone, List.countP_nil]
        omega
    have hcount := hcount hended
    have hrest := ih (holding.hold op) live' fun before hbefore => by
      have hcons := hstep before hbefore
      omega
    show ((p.hold op).holdAll rest).host.shareCount h = _
    rw [hrest, hcount, countP_cons_toNat, givenBack]
    omega

end Program

/-! ## A share for each shared container -/

/-- **Every shared container has been given a share of its own**: to each that is made of a handle
there is an earlier time when the host added a share, and no two have the same. -/
def EachOwnShare (h : Handle) (ops : List HoldOp) : Prop :=
  ∃ own : Nat → Nat,
    (∀ i ∈ ops.findIdxs (·.adopts h), own i < i ∧ own i ∈ ops.findIdxs (·.shares h)) ∧
    ∀ i ∈ ops.findIdxs (·.adopts h), ∀ j ∈ ops.findIdxs (·.adopts h), own i = own j → i = j

/-- What stands at the beginning of a list stands there in the whole of it. -/
theorem mem_findIdxs_of_prefix {α : Type} {p : α → Bool} {before l : List α}
    (hbefore : before <+: l) (i : Nat) :
    i ∈ before.findIdxs p ↔ i < before.length ∧ i ∈ l.findIdxs p := by
  obtain ⟨rest, rfl⟩ := hbefore
  simp only [List.mem_findIdxs_iff_exists_getElem_pos]
  grind

/-- There are never more of those containers than shares that have been added. -/
theorem EachOwnShare.countP_le {h : Handle} {ops before : List HoldOp} (each : EachOwnShare h ops)
    (hbefore : before <+: ops) : before.countP (·.adopts h) ≤ before.countP (·.shares h) := by
  obtain ⟨own, earlier, once⟩ := each
  have within := fun {q : HoldOp → Bool} => mem_findIdxs_of_prefix (p := q) hbefore
  have hsub : ((before.findIdxs (·.adopts h)).map own) ⊆ before.findIdxs (·.shares h) := by
    intro k hk
    obtain ⟨i, hi, rfl⟩ := List.mem_map.mp hk
    obtain ⟨hlt, hi⟩ := (within i).mp hi
    obtain ⟨hown, hshares⟩ := earlier i hi
    exact (within _).mpr ⟨Nat.lt_trans hown hlt, hshares⟩
  have hnodup : ((before.findIdxs (·.adopts h)).map own).Nodup := by
    refine List.Nodup.map_on (fun i hi j hj => ?_) List.nodup_findIdxs
    exact once i ((within i).mp hi).2 j ((within j).mp hj).2
  have hle := (hnodup.subperm hsub).length_le
  rwa [List.length_map, List.length_findIdxs, List.length_findIdxs] at hle

/-! ## Arrays that stay the host's -/

/-- What the library reads as the shares of an array is what the host counts. -/
theorem Session.shareCount_of_attached {s : Session} (attached : s.attached = true) {h : Handle}
    (hnull : h ≠ Handle.null) {kind : ContainerKind} (array : kind ≠ .collection) :
    s.shareCount kind h = s.host.shareCount h := by
  unfold Session.shareCount
  rw [if_neg hnull]
  cases kind with
  | collection => exact absurd rfl array
  | tensor => exact if_pos attached
  | numericArray => exact if_pos attached

/-- **What the host counts for one of its arrays.** From when it is made on, whatever operations
follow on containers that do not own it: it stays live and is never freed; what is counted as given
back is how often a shared container was reset or ended its life while it held it, in the 32 bits of
the counter, so it is that number itself as long as the counter has not gone round; operations that end
no shared container leave the host as it is; and the shares are never negative. If every shared
container has been given a share of its own, the shares are those that were added without those that
were given back. -/
theorem Program.held_array_accounted {p : Program} (holding : p.Holding) {a : Dense} {h : Handle}
    {w : Host} (made : p.host.addArray a = (h, w)) (unshared : a.shares = 0) (ops : List HoldOp) :
    let start := p.withHost w
    let q := start.holdAll ops
    q.host.arrays.contains h = true ∧ (q.host.releasesOf h).frees = 0 ∧
      (q.host.releasesOf h).disowns =
        (start.host.releasesOf h).disowns + UInt32.ofNat (start.givenBack h ops) ∧
      (start.givenBack h ops < UInt32.size →
        ((q.host.releasesOf h).disowns - (start.host.releasesOf h).disowns).toNat =
          start.givenBack h ops) ∧
      (∀ op, op.isHosts = false → (∀ c ∈ q.ended op, c.mode ≠ .shared) →
        (q.hold op).host = q.host) ∧
      (∀ kind, 0 ≤ q.session.shareCount kind h) ∧
      (start.holders h = 0 → EachOwnShare h ops → ∀ kind, kind ≠ .collection →
        q.session.shareCount kind h = ops.countP (·.shares h) - start.givenBack h ops) := by
  intro start q
  obtain ⟨rfl, rfl⟩ := Prod.mk.inj made
  obtain ⟨given, past⟩ := holding.history
  have past' := past.change (.array p.host a)
  have holding' : start.Holding := holding.withHost ⟨_, past'⟩
  have live : start.host.arrays.contains p.host.nextId = true :=
    Table.contains_of_get? (Table.get?_insert_self ..)
  have hnull : p.host.nextId ≠ Handle.null := Nat.pos_iff_ne_zero.mp past.sound.next_pos
  have zero : start.host.shareCount p.host.nextId = 0 := by
    have hget : start.host.arrays.get? p.host.nextId = some a := Table.get?_insert_self ..
    rw [Host.shareCount, hget]
    exact unshared
  have unfreed : (start.host.releasesOf p.host.nextId).frees = 0 := by
    rcases past'.sound.frees_owned (past'.sound.named .array _ live) (.inl rfl) with h | h
    · exact h.2
    · exact absurd (h.1.symm.trans live) Bool.false_ne_true
  obtain ⟨live', releases, nonneg⟩ := counts_holdAll holding' live ops
  have attached : q.session.attached = true := (holding'.holdAll ops).attached
  have disowned : (q.host.releasesOf p.host.nextId).disowns =
      (start.host.releasesOf p.host.nextId).disowns +
        UInt32.ofNat (start.givenBack p.host.nextId ops) :=
    congrArg Releases.disowns releases
  refine ⟨live', (congrArg Releases.frees releases).trans unfreed, disowned, ?_, ?_, ?_, ?_⟩
  · intro few
    rw [disowned, UInt32.add_comm, UInt32.add_sub_cancel]
    exact UInt32.toNat_ofNat_of_lt' few
  · intro op library unshared
    have hsession := session_hold (holding'.holdAll ops) library
    exact (congrArg Session.host hsession).trans (letGoAll_of_not_shared _ _ unshared)
  · intro kind
    by_cases array : kind = .collection
    · have hnone : q.session.shareCount .collection p.host.nextId = 0 := if_neg hnull
      exact array ▸ Int.le_of_eq hnone.symm
    · rw [Session.shareCount_of_attached attached hnull array]
      exact nonneg (Int.le_of_eq zero.symm)
  · intro unheld each kind array
    have hcount := shareCount_holdAll holding' live ops fun before hbefore => by
      have hle := each.countP_le hbefore
      rw [unheld, zero]
      omega
    rw [Session.shareCount_of_attached attached hnull array]
    rw [zero, Int.zero_add] at hcount
    exact hcount

/-- A host array of one element. -/
def heldArray : Dense := ⟨.tensor .integer, [1], 1, List.replicate 8 0, 0⟩

/-- The array is shared with one container, looked at through another one, and moved before it is
given back. -/
def heldOps : List HoldOp :=
  [.adopt 1 .tensor .automatic 1 (by decide), .share 1, .adopt 0 .tensor .shared 1 (by decide),
    .share 1, .take 2 0, .drop 0, .drop 1, .reset 2, .drop 2]

/-- A program that has just started, with a host that has just made the array. -/
def heldStart : Program :=
  (Program.start {} ⟨0, [], [], none⟩).withHost (Host.addArray {} heldArray).2

theorem Program.held_array_accounted_shared :
    (heldStart.holdAll heldOps).host.arrays.contains 1 = true ∧
      ((heldStart.holdAll heldOps).host.releasesOf 1).disowns = 1 ∧
      (heldStart.holdAll heldOps).session.shareCount .tensor 1 = 1 := by
  have holding : (Program.start {} ⟨0, [], [], none⟩).Holding := ⟨rfl, nofun, [], .start⟩
  have each : EachOwnShare 1 heldOps := ⟨fun _ => 1, by decide, by decide⟩
  obtain ⟨live, -, disowned, -, -, -, shares⟩ :=
    Program.held_array_accounted holding (a := heldArray) (h := 1) rfl rfl heldOps
  change _ = (heldStart.host.releasesOf 1).disowns + UInt32.ofNat (heldStart.givenBack 1 heldOps)
    at disowned
  have hback : heldStart.givenBack 1 heldOps = 1 := by decide +kernel
  have hnone : (heldStart.host.releasesOf 1).disowns = 0 := by decide +kernel
  have hadded : heldOps.countP (·.shares 1) = 2 := by decide
  have hdisowned : ((heldStart.holdAll heldOps).host.releasesOf 1).disowns = 1 := by
    rw [hback, hnone] at disowned
    exact disowned
  have hshares := shares (by decide +kernel) each .tensor (by decide)
  change (heldStart.holdAll heldOps).session.shareCount .tensor 1 =
    heldOps.countP (·.shares 1) - heldStart.givenBack 1 heldOps at hshares
  rw [hback, hadded] at hshares
  exact ⟨live, hdisowned, hshares⟩

end Marshal
