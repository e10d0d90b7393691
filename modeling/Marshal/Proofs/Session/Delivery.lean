import Marshal.Proofs.Collection.Insertions
import Marshal.Proofs.Session.Parameters

/-!
# `Proofs.Session.Delivery` — links deliver in order and exactly once

A packet that a link accepts waits on it as bytes, is processed as an expression, and is taken. The
three parts of its way are three parts of one list: the packets taken from the link, then those it has
processed, then those that wait are, in this order, the packets that it has accepted. Nothing that
happens to a link moves a packet over another one, so a run is settled by looking at what one
operation does to one link.

## Contents

* `LinkOp`, `LinkOp.act`, `Session.runLinks` — operations on links, and runs of them;
* `Session.acceptedBy`, `Session.takenFrom` — what a run hands to a link and takes from it;
* `Link.Step` — all that an operation can do to a link;
* `MostRecent`, `LastBinds` — what came last in a list, and the last assignment to a symbol;
* `Link.Delivered` — what holds of a link after every run;
* `links_deliver` — every link after every run.
-/

namespace Marshal

open Marshal.Host

/-! ## Operations on links -/

/-- What is done with links: the library puts packets on them and has them processed, and the host's
side opens links, takes from them and breaks them. Links are named by any handle at all. Kinds of
errors are registered in between. -/
inductive LinkOp
  | newLink
  | put (link : Handle) (e : Expr)
  | publish (link : Handle)
  | process (link : Handle)
  | take (link : Handle)
  | sever (link : Handle)
  | register (call : Registration)

namespace LinkOp

/-- An operation as an action. -/
def act : LinkOp → Act Unit
  | newLink => modify fun s => { s with host := s.host.newLink.2 }
  | put link e => Act.sendExpr link e
  | publish link => Act.publishRegistry link
  | process link => Act.evaluateLink link
  | take link => modify fun s => { s with host := (s.host.takeProcessed link).2 }
  | sever link => modify fun s => { s with host := s.host.severLink link }
  | register call => modify fun s => { s with registry := s.registry.carryOut call }

/-- The session after an operation, whether or not it fails. -/
def next (op : LinkOp) (s : Session) : Session := (outcome op.act s).2

/-- The link that an operation is about. -/
def target? (s : Session) : LinkOp → Option Handle
  | newLink => some s.host.nextId
  | put link _ => some link
  | publish link => some link
  | process link => some link
  | take link => some link
  | sever link => some link
  | register _ => none

/-- The packet that an operation offers, to whichever link. -/
def offered (s : Session) : LinkOp → List Expr
  | put _ e => [e]
  | publish _ => [s.registry.expr]
  | _ => []

/-- The packets that a link accepts from an operation: what is offered to it without an error. -/
def accepted (op : LinkOp) (s : Session) (link : Handle) : List Expr :=
  if op.target? s = some link ∧ (outcome op.act s).1.isSome then op.offered s else []

/-- The packets that an operation takes from a link. -/
def taken (op : LinkOp) (s : Session) (link : Handle) : List Expr :=
  match op with
  | take other => if other = link then (s.host.takeProcessed link).1 else []
  | _ => []

end LinkOp

namespace Session

/-- The session after some operations on links. -/
def runLinks (s : Session) (ops : List LinkOp) : Session := ops.foldl (fun s op => op.next s) s

/-- The packets that a link accepts during a run. -/
def acceptedBy (link : Handle) (s : Session) : List LinkOp → List Expr
  | [] => []
  | op :: ops => op.accepted s link ++ acceptedBy link (op.next s) ops

/-- The packets that are taken from a link during a run. -/
def takenFrom (link : Handle) (s : Session) : List LinkOp → List Expr
  | [] => []
  | op :: ops => op.taken s link ++ takenFrom link (op.next s) ops

end Session

/-! ## What came last -/

/-- Something of a kind is in a list, and all that comes after it is of no concern. -/
def MostRecent {α : Type} (wanted quiet : α → Prop) (xs : List α) : Prop :=
  ∃ before x after, xs = before ++ x :: after ∧ wanted x ∧ ∀ later ∈ after, quiet later

namespace MostRecent

variable {α : Type} {wanted quiet : α → Prop} {xs : List α} {x : α}

theorem not_nil : ¬ MostRecent wanted quiet [] := by
  rintro ⟨before, x, after, h, -⟩
  simp at h

/-- What is of no concern changes nothing at the end. -/
theorem snoc_of_quiet (unwanted : ¬ wanted x) (hquiet : quiet x) :
    MostRecent wanted quiet (xs ++ [x]) ↔ MostRecent wanted quiet xs := by
  constructor
  · rintro ⟨before, last, after, hxs, hlast, hafter⟩
    rcases List.eq_nil_or_concat after with rfl | ⟨rest, later, rfl⟩
    · obtain rfl : x = last := List.singleton_inj.mp (List.append_inj_right' hxs rfl)
      exact absurd hlast unwanted
    · rw [List.concat_eq_append, ← List.cons_append, ← List.append_assoc] at hxs
      refine ⟨before, last, rest, List.append_inj_left' hxs rfl, hlast, ?_⟩
      intro later hmem
      exact hafter later (by simp [hmem])
  · rintro ⟨before, last, after, rfl, hlast, hafter⟩
    refine ⟨before, last, after ++ [x], by simp, hlast, ?_⟩
    intro later hmem
    rcases List.mem_append.mp hmem with hmem | hmem
    · exact hafter later hmem
    · rw [List.mem_singleton.mp hmem]
      exact hquiet

/-- Anything else decides alone at the end. -/
theorem snoc_of_not_quiet (loud : ¬ quiet x) :
    MostRecent wanted quiet (xs ++ [x]) ↔ wanted x := by
  constructor
  · rintro ⟨before, last, after, hxs, hlast, hafter⟩
    rcases List.eq_nil_or_concat after with rfl | ⟨rest, later, rfl⟩
    · obtain rfl : x = last := List.singleton_inj.mp (List.append_inj_right' hxs rfl)
      exact hlast
    · rw [List.concat_eq_append, ← List.cons_append, ← List.append_assoc] at hxs
      obtain rfl : x = later := List.singleton_inj.mp (List.append_inj_right' hxs rfl)
      exact absurd (hafter x (by simp)) loud
  · intro hx
    exact ⟨xs, x, [], rfl, hx, fun _ h => absurd h List.not_mem_nil⟩

end MostRecent

/-- The last of the packets that assign to a symbol assigns a value to it. -/
def LastBinds (packets : List Expr) (name : String) (value : Expr) : Prop :=
  MostRecent (· = Expr.evaluatePacket (Expr.set name value))
    (fun later => ∀ other, later ≠ Expr.evaluatePacket (Expr.set name other)) packets

namespace LastBinds

variable {packets : List Expr} {name : String} {value : Expr}

/-- Whatever is no assignment to a symbol leaves it. -/
theorem snoc_of_other {packet : Expr}
    (h : ∀ other, packet ≠ Expr.evaluatePacket (Expr.set name other)) :
    LastBinds (packets ++ [packet]) name value ↔ LastBinds packets name value :=
  MostRecent.snoc_of_quiet (h value) h

/-- An assignment settles its symbol. -/
theorem snoc_assignment (other : Expr) :
    LastBinds (packets ++ [Expr.evaluatePacket (Expr.set name other)]) name value ↔
      other = value := by
  have hloud : ¬ ∀ v, Expr.evaluatePacket (Expr.set name other) ≠
      Expr.evaluatePacket (Expr.set name v) := fun h => h other rfl
  rw [LastBinds, MostRecent.snoc_of_not_quiet hloud]
  simp [Expr.evaluatePacket, Expr.set]

end LastBinds

namespace Link

/-- The packets that ask for an assignment. -/
theorem assignment?_eq_some_iff {packet value : Expr} {name : String} :
    assignment? packet = some (name, value) ↔
      packet = Expr.evaluatePacket (Expr.set name value) := by
  constructor
  · intro h
    unfold assignment? at h
    split at h
    · split at h
      · next hheads =>
        obtain ⟨rfl, rfl⟩ := hheads
        cases h
        rfl
      · cases h
    · cases h
  · rintro rfl
    rfl

theorem boundValue?_bind (l : Link) (name other : String) (value : Expr) :
    (l.bind name value).boundValue? other =
      if other = name then some value else l.boundValue? other := by
  by_cases hname : other = name
  · subst hname
    rw [if_pos rfl]
    exact l.boundValue?_bind_self other value
  · have hfirst : (name == other) = false := by simpa using fun h : name = other => hname h.symm
    rw [if_neg hname]
    simp only [boundValue?, bind, List.find?_cons, hfirst, List.find?_filter]
    congr 2
    funext p
    by_cases hp : p.1 = other
    · simp [hp, hname]
    · simp [hp]

end Link

/-! ## What an operation does to a link -/

namespace Link

/-- **All that an operation can do to a link**, with the packets that the link accepts and the ones
that are taken from it. -/
inductive Step : Link → List Expr → List Expr → Link → Prop
  | rest (l : Link) : Step l [] [] l
  | accept {l : Link} (unbroken : l.broken = false) (e : Expr) :
      Step l [e] [] (l.enqueue e.encode)
  | process {l : Link} (unbroken : l.broken = false) : Step l [] [] l.evaluatePending.2
  | take (l : Link) : Step l [] l.processed { l with processed := [] }
  | sever (l : Link) : Step l [] [] { l with broken := true }

/-- **What holds of a link**, given the packets that it has accepted and the ones that have been taken
from it. -/
structure Delivered (accepted taken : List Expr) (l : Link) : Prop where
  inOrder : ∃ waiting, l.pending.map Expr.decode = waiting.map .ok ∧
    taken ++ l.processed ++ waiting = accepted
  bound : ∀ name value,
    l.boundValue? name = some value ↔ LastBinds (taken ++ l.processed) name value

namespace Delivered

variable {accepted taken : List Expr} {l : Link}

theorem new : Delivered [] [] {} := by
  constructor
  case inOrder => exact ⟨[], rfl, rfl⟩
  case bound =>
    intro name value
    constructor
    · intro h
      cases h
    · intro h
      exact absurd h MostRecent.not_nil

/-- Evaluating one packet settles its symbol, if it assigns to one, and no other. -/
theorem bound_evaluate {packets : List Expr}
    (h : ∀ name value, l.boundValue? name = some value ↔ LastBinds packets name value)
    (packet : Expr) (name : String) (value : Expr) :
    (l.evaluate packet).boundValue? name = some value ↔ LastBinds (packets ++ [packet]) name value := by
  cases hassign : assignment? packet with
  | none =>
    have hother : ∀ other, packet ≠ Expr.evaluatePacket (Expr.set name other) := by
      intro other hpacket
      rw [assignment?_eq_some_iff.mpr hpacket] at hassign
      cases hassign
    rw [LastBinds.snoc_of_other hother, ← h]
    unfold evaluate
    rw [hassign]
    rfl
  | some assigned =>
    obtain ⟨symbol, v⟩ := assigned
    have hpacket := assignment?_eq_some_iff.mp hassign
    have hbound : (l.evaluate packet).boundValue? name = (l.bind symbol v).boundValue? name := by
      unfold evaluate
      rw [hassign]
      rfl
    rw [hbound, boundValue?_bind]
    by_cases hname : name = symbol
    · subst hname
      rw [if_pos rfl, hpacket, LastBinds.snoc_assignment, Option.some_inj]
    · have hother : ∀ other, packet ≠ Expr.evaluatePacket (Expr.set name other) := by
        rintro other rfl
        rw [assignment?_eq_some_iff.mpr rfl] at hassign
        cases hassign
        exact hname rfl
      rw [if_neg hname, LastBinds.snoc_of_other hother, h]

theorem bound_foldl_evaluate {packets : List Expr} (es : List Expr)
    (h : ∀ name value, l.boundValue? name = some value ↔ LastBinds packets name value) :
    ∀ name value, (es.foldl evaluate l).boundValue? name = some value ↔
      LastBinds (packets ++ es) name value := by
  induction es generalizing l packets with
  | nil =>
    rw [List.append_nil]
    exact h
  | cons e es ih =>
    rw [List.append_cons]
    exact ih (bound_evaluate h e)

/-- Processing a link moves all that waits behind what has been processed. -/
theorem process (h : Delivered accepted taken l) :
    Delivered accepted taken l.evaluatePending.2 ∧ l.evaluatePending.1 = true ∧
      l.evaluatePending.2.pending = [] ∧ taken ++ l.evaluatePending.2.processed = accepted := by
  obtain ⟨waiting, hreadable, horder⟩ := h.inOrder
  have hdone : l.evaluatePending = (true, waiting.foldl evaluate { l with pending := [] }) :=
    evaluateAll_of_decodes hreadable
  obtain ⟨hpending, hprocessed⟩ := foldl_evaluate_eq { l with pending := [] } waiting
  have hall : taken ++ (waiting.foldl evaluate { l with pending := [] }).processed = accepted := by
    rw [hprocessed, ← List.append_assoc]
    exact horder
  rw [hdone]
  refine ⟨?_, rfl, hpending, hall⟩
  constructor
  case inOrder =>
    refine ⟨[], ?_, ?_⟩
    · rw [hpending]
      rfl
    · rw [List.append_nil]
      exact hall
  case bound =>
    have hbound := bound_foldl_evaluate waiting (l := { l with pending := [] }) h.bound
    rwa [List.append_assoc, ← hprocessed] at hbound

/-- **Step lemma.** What holds of a link is kept by every operation, if the packets that it accepts can
be stored. -/
theorem step (h : Delivered accepted taken l) {offered removed : List Expr} {l' : Link}
    (step : Step l offered removed l') (storable : ∀ e ∈ offered, e.Storable) :
    Delivered (accepted ++ offered) (taken ++ removed) l' := by
  cases step with
  | rest =>
    simp only [List.append_nil]
    exact h
  | accept unbroken e =>
    obtain ⟨waiting, hreadable, horder⟩ := h.inOrder
    rw [List.append_nil]
    refine ⟨⟨waiting ++ [e], ?_, ?_⟩, h.bound⟩
    · show (l.pending ++ [e.encode]).map Expr.decode = _
      rw [List.map_append, hreadable, List.map_append, List.map_singleton,
        Expr.decode_encode (storable e (List.mem_singleton.mpr rfl)), List.map_singleton]
    · show taken ++ l.processed ++ (waiting ++ [e]) = _
      rw [← List.append_assoc, horder]
  | process unbroken =>
    simp only [List.append_nil]
    exact h.process.1
  | take =>
    obtain ⟨waiting, hreadable, horder⟩ := h.inOrder
    rw [List.append_nil]
    refine ⟨⟨waiting, hreadable, ?_⟩, ?_⟩
    · rw [List.append_nil]
      exact horder
    · intro name value
      rw [List.append_nil]
      exact h.bound name value
  | sever =>
    simp only [List.append_nil]
    exact ⟨h.inOrder, h.bound⟩

end Delivered

/-- **A broken link stays as it is**, except that what it has processed can be taken. -/
theorem Step.of_broken {l l' : Link} {offered removed : List Expr} (step : Step l offered removed l')
    (broken : l.broken = true) :
    l'.broken = true ∧ l'.pending = l.pending ∧ l'.symbols = l.symbols ∧ offered = [] ∧
      removed ++ l'.processed = l.processed := by
  cases step with
  | rest => exact ⟨broken, rfl, rfl, rfl, rfl⟩
  | accept unbroken => rw [broken] at unbroken; cases unbroken
  | process unbroken => rw [broken] at unbroken; cases unbroken
  | take => exact ⟨broken, rfl, rfl, rfl, List.append_nil _⟩
  | sever => exact ⟨rfl, rfl, rfl, rfl, rfl⟩

end Link

/-! ## What an operation does to the links -/

section Outcomes

variable {s : Session}

/-- A packet goes on a link that works, and is refused by any other. -/
theorem sendExpr_eq (attached : s.attached = true) (null : s.host.links.get? Handle.null = none)
    (link : Handle) (e : Expr) :
    Act.sendExpr link e s =
      match s.host.links.get? link with
      | some l =>
        if l.broken then .error (s.registry.errorOf .packetRefused) s
        else .ok () (s.setLink link (l.enqueue e.encode))
      | none =>
        .error (s.registry.errorOf (if link = Handle.null then .noLink else .packetRefused)) s := by
  by_cases hnull : link = Handle.null
  · subst hnull
    rw [null, if_pos rfl]
    simp only [Act.sendExpr, if_pos, bind, EStateM.bind, Act.fail]
  · have hact : Act.sendExpr link e s =
        let sent := s.host.enqueuePacket link e.encode
        if sent.1 then .ok () { s with host := sent.2 }
        else .error (s.registry.errorOf .packetRefused) { s with host := sent.2 } := by
      simp only [Act.sendExpr, if_neg hnull, Act.request, Session.request, attached, bind,
        EStateM.bind, pure]
      rcases s.host.enqueuePacket link e.encode with ⟨_ | _, w⟩
      · simp [Act.fail]
      · rfl
    rw [hact, if_neg hnull]
    unfold enqueuePacket
    cases s.host.links.get? link with
    | none => rfl
    | some l => cases hbroken : l.broken <;> simp [hbroken, Session.setLink]

theorem outcome_sendExpr (attached : s.attached = true)
    (null : s.host.links.get? Handle.null = none) (link : Handle) (e : Expr) :
    outcome (Act.sendExpr link e) s =
      match s.host.links.get? link with
      | some l => if l.broken then (none, s) else (some (), s.setLink link (l.enqueue e.encode))
      | none => (none, s) := by
  rw [outcome, sendExpr_eq attached null]
  cases s.host.links.get? link with
  | none => rfl
  | some l => cases hbroken : l.broken <;> simp [hbroken]

/-- The table of kinds is sent as the expression that it is at the time. -/
theorem publishRegistry_eq (s : Session) (link : Handle) :
    Act.publishRegistry link s = Act.sendExpr link s.registry.expr s := rfl

theorem LinkOp.outcome_publish (s : Session) (link : Handle) :
    outcome (publish link).act s = outcome (Act.sendExpr link s.registry.expr) s := by
  show outcome (Act.publishRegistry link) s = _
  rw [outcome, publishRegistry_eq]
  rfl

/-- A link that works processes what waits on it, and no other does. -/
theorem evaluateLink_eq (attached : s.attached = true) (link : Handle) :
    Act.evaluateLink link s =
      match s.host.links.get? link with
      | some l =>
        if l.broken then .error (s.registry.errorOf .packetProcessing) s
        else if l.evaluatePending.1 then .ok () (s.setLink link l.evaluatePending.2)
        else .error (s.registry.errorOf .packetProcessing) (s.setLink link l.evaluatePending.2)
      | none => .error (s.registry.errorOf .packetProcessing) s := by
  have hact : Act.evaluateLink link s =
      match s.host.evaluateLink link with
      | (true, w) => .ok () { s with host := w }
      | (false, w) => .error (s.registry.errorOf .packetProcessing) { s with host := w } := by
    simp only [Act.evaluateLink, Act.request, Session.request, attached, bind, EStateM.bind, pure]
    rcases s.host.evaluateLink link with ⟨_ | _, w⟩
    · simp [Act.fail]
    · rfl
  rw [hact]
  unfold evaluateLink
  cases s.host.links.get? link with
  | none => rfl
  | some l =>
    cases hbroken : l.broken
    · cases hdone : l.evaluatePending.1 <;> simp [hbroken, hdone, Session.setLink]
    · simp [hbroken]

end Outcomes

/-- Sending and evaluating do something to the host and to nothing else. -/
theorem Act.sendExpr_evolves (s : Session) (link : Handle) (e : Expr) :
    ∃ w, Evolves s.host w ∧ (outcome (sendExpr link e) s).2 = { s with host := w } := by
  by_cases hnull : link = Handle.null
  · subst hnull
    exact ⟨s.host, .refl _, rfl⟩
  · by_cases hattached : s.attached = true
    case neg =>
      have hsame : (outcome (sendExpr link e) s).2 = s := by
        simp [outcome, sendExpr, hnull, request,
          Session.request_of_detached (Bool.eq_false_iff.mpr hattached), fail, bind,
          EStateM.bind]
      exact ⟨s.host, .refl _, hsame⟩
    case pos =>
      refine ⟨_, .enqueuePacket s.host link e.encode, ?_⟩
      simp only [outcome, sendExpr, if_neg hnull, request, Session.request, hattached, bind,
        EStateM.bind, pure]
      rcases s.host.enqueuePacket link e.encode with ⟨_ | _, w⟩
      · simp [fail]
      · rfl

theorem Act.evaluateLink_evolves (s : Session) (link : Handle) :
    ∃ w, Evolves s.host w ∧ (outcome (evaluateLink link) s).2 = { s with host := w } := by
  by_cases hattached : s.attached = true
  case neg =>
    have hsame : (outcome (evaluateLink link) s).2 = s := by
      simp [outcome, evaluateLink, request,
          Session.request_of_detached (Bool.eq_false_iff.mpr hattached), fail, bind,
        EStateM.bind]
    exact ⟨s.host, .refl _, hsame⟩
  case pos =>
    refine ⟨_, .evaluateLink s.host link, ?_⟩
    simp only [outcome, evaluateLink, request, Session.request, hattached, bind, EStateM.bind, pure]
    rcases s.host.evaluateLink link with ⟨_ | _, w⟩
    · simp [fail]
    · rfl

/-- Null is no link. -/
theorem Session.Running.links_null {s : Session} (running : s.Running) :
    s.host.links.get? Handle.null = none := by
  obtain ⟨made, past⟩ := running.hosted
  apply Table.get?_of_not_contains
  intro hnamed
  exact Nat.lt_irrefl _ (past.sound.lt_next (u := .link) hnamed).1

theorem Session.Running.link_ne_null {s : Session} (running : s.Running) {link : Handle} {l : Link}
    (live : s.host.links.get? link = some l) : link ≠ Handle.null := by
  rintro rfl
  rw [running.links_null] at live
  cases live

/-- The next number is no link yet. -/
theorem Session.Running.links_next {s : Session} (running : s.Running) :
    s.host.links.get? s.host.nextId = none := by
  obtain ⟨made, past⟩ := running.hosted
  apply Table.get?_of_not_contains
  intro hnamed
  exact Nat.lt_irrefl _ (past.sound.lt_next (u := .link) hnamed).2

theorem Session.get?_setLink_of_ne (s : Session) {link other : Handle} (l : Link)
    (h : other ≠ link) : (s.setLink link l).host.links.get? other = s.host.links.get? other :=
  Table.get?_insert_of_ne _ _ h

section Outcomes

variable {s : Session} {link target : Handle}

/-- A packet that is sent goes on its own link. -/
theorem links_sendExpr_of_other (running : s.Running) (other : link ≠ target) (e : Expr) :
    (outcome (Act.sendExpr target e) s).2.host.links.get? link = s.host.links.get? link := by
  rw [outcome_sendExpr running.attached running.links_null]
  cases s.host.links.get? target with
  | none => rfl
  | some l =>
    cases hbroken : l.broken
    · simp [hbroken, s.get?_setLink_of_ne _ other]
    · simp [hbroken]

/-- A link accepts a packet that is sent without an error. -/
theorem sendExpr_step (running : s.Running) {l : Link} (live : s.host.links.get? link = some l)
    (e : Expr) :
    ∃ l', (outcome (Act.sendExpr link e) s).2.host.links.get? link = some l' ∧
      Link.Step l (if (outcome (Act.sendExpr link e) s).1.isSome then [e] else []) [] l' := by
  rw [outcome_sendExpr running.attached running.links_null, live]
  cases hbroken : l.broken
  · exact ⟨_, by simpa [hbroken] using s.get?_setLink link _, by simpa [hbroken] using .accept hbroken e⟩
  · exact ⟨l, by simpa [hbroken] using live, by simpa [hbroken] using .rest l⟩

/-- What is no link accepts nothing. -/
theorem sendExpr_of_missing (running : s.Running) (missing : s.host.links.get? link = none)
    (e : Expr) : outcome (Act.sendExpr link e) s = (none, s) := by
  rw [outcome_sendExpr running.attached running.links_null, missing]

end Outcomes

namespace LinkOp

variable {s : Session} {op : LinkOp} {link : Handle}

/-- **An operation on one link leaves every other one.** -/
theorem links_next_of_other (running : s.Running) (other : op.target? s ≠ some link) :
    (op.next s).host.links.get? link = s.host.links.get? link := by
  have apart : ∀ target, op.target? s = some target → link ≠ target := by
    rintro target htarget rfl
    exact other htarget
  cases op with
  | newLink => exact Table.get?_insert_of_ne _ _ (apart _ rfl)
  | put target e => exact links_sendExpr_of_other running (apart _ rfl) e
  | publish target =>
    rw [next, outcome_publish]
    exact links_sendExpr_of_other running (apart _ rfl) s.registry.expr
  | process target =>
    show (outcome (Act.evaluateLink target) s).2.host.links.get? link = _
    unfold outcome
    rw [evaluateLink_eq running.attached]
    cases s.host.links.get? target with
    | none => rfl
    | some l =>
      cases hbroken : l.broken
      · cases hdone : l.evaluatePending.1 <;>
          simp [hbroken, hdone, s.get?_setLink_of_ne _ (apart _ rfl)]
      · simp [hbroken]
  | take target =>
    show (s.host.links.modify target _).get? link = _
    rw [Table.get?_modify, if_neg (apart _ rfl)]
  | sever target =>
    show (s.host.links.modify target _).get? link = _
    rw [Table.get?_modify, if_neg (apart _ rfl)]
  | register call => rfl

/-- An operation on one link offers nothing to another one and takes nothing from it. -/
theorem accepted_of_other (other : op.target? s ≠ some link) : op.accepted s link = [] :=
  if_neg fun h => other h.1

theorem taken_of_other (other : op.target? s ≠ some link) : op.taken s link = [] := by
  cases op with
  | take target => exact if_neg fun h => other (congrArg some h)
  | _ => rfl

/-- **An operation takes a step with every link that there is**, which is a rest for all links but its
own. -/
theorem next_of_live (running : s.Running) {l : Link} (live : s.host.links.get? link = some l) :
    ∃ l', (op.next s).host.links.get? link = some l' ∧
      Link.Step l (op.accepted s link) (op.taken s link) l' := by
  by_cases hself : op.target? s = some link
  case neg =>
    rw [accepted_of_other hself, taken_of_other hself, links_next_of_other running hself]
    exact ⟨l, live, .rest l⟩
  have haccepted : op.accepted s link =
      if (outcome op.act s).1.isSome then op.offered s else [] := by
    unfold accepted
    simp only [hself, true_and]
  rw [haccepted]
  cases op with
  | newLink =>
    -- a new link is none of those that there are
    obtain rfl : s.host.nextId = link := Option.some.inj hself
    rw [running.links_next] at live
    cases live
  | put target e =>
    obtain rfl : target = link := Option.some.inj hself
    exact sendExpr_step running live e
  | publish target =>
    obtain rfl : target = link := Option.some.inj hself
    rw [next, outcome_publish]
    exact sendExpr_step running live s.registry.expr
  | process target =>
    obtain rfl : target = link := Option.some.inj hself
    show ∃ l', (outcome (Act.evaluateLink target) s).2.host.links.get? target = some l' ∧
      Link.Step l (if (outcome (Act.evaluateLink target) s).1.isSome then [] else []) [] l'
    rw [ite_self]
    unfold outcome
    rw [evaluateLink_eq running.attached, live]
    cases hbroken : l.broken
    · refine ⟨l.evaluatePending.2, ?_, .process hbroken⟩
      cases hdone : l.evaluatePending.1 <;> simp [hbroken, hdone, s.get?_setLink]
    · exact ⟨l, by simpa [hbroken] using live, .rest l⟩
  | take target =>
    obtain rfl : target = link := Option.some.inj hself
    have htaken : (take target).taken s target = l.processed := by
      show (if target = target then (s.host.takeProcessed target).1 else []) = _
      rw [if_pos rfl, Host.takeProcessed, live]
      rfl
    rw [htaken]
    refine ⟨_, ?_, .take l⟩
    show (s.host.links.modify target _).get? target = _
    rw [Table.get?_modify, if_pos rfl, live]
    rfl
  | sever target =>
    obtain rfl : target = link := Option.some.inj hself
    refine ⟨_, ?_, .sever l⟩
    show (s.host.links.modify target _).get? target = _
    rw [Table.get?_modify, if_pos rfl, live]
    rfl
  | register call => cases hself

/-- What is no link accepts nothing, and becomes a link only as a new one. -/
theorem next_of_missing (running : s.Running) (missing : s.host.links.get? link = none) :
    op.accepted s link = [] ∧ op.taken s link = [] ∧
      ((op.next s).host.links.get? link = none ∨
        (op.next s).host.links.get? link = some {}) := by
  by_cases hself : op.target? s = some link
  case neg =>
    rw [accepted_of_other hself, taken_of_other hself, links_next_of_other running hself]
    exact ⟨rfl, rfl, .inl missing⟩
  have haccepted : op.accepted s link =
      if (outcome op.act s).1.isSome then op.offered s else [] := by
    unfold accepted
    simp only [hself, true_and]
  rw [haccepted]
  cases op with
  | newLink =>
    obtain rfl : s.host.nextId = link := Option.some.inj hself
    exact ⟨rfl, rfl, .inr (Table.get?_insert_self ..)⟩
  | put target e =>
    obtain rfl : target = link := Option.some.inj hself
    have hrefused : outcome (put target e).act s = (none, s) := sendExpr_of_missing running missing e
    rw [next, hrefused]
    exact ⟨rfl, rfl, .inl missing⟩
  | publish target =>
    obtain rfl : target = link := Option.some.inj hself
    have hrefused : outcome (publish target).act s = (none, s) :=
      (outcome_publish s target).trans (sendExpr_of_missing running missing s.registry.expr)
    rw [next, hrefused]
    exact ⟨rfl, rfl, .inl missing⟩
  | process target =>
    obtain rfl : target = link := Option.some.inj hself
    have hrefused : outcome (process target).act s = (none, s) := by
      show outcome (Act.evaluateLink target) s = _
      unfold outcome
      rw [evaluateLink_eq running.attached, missing]
    rw [next, hrefused]
    exact ⟨rfl, rfl, .inl missing⟩
  | take target =>
    obtain rfl : target = link := Option.some.inj hself
    refine ⟨ite_self _, ?_, .inl ?_⟩
    · show (if target = target then (s.host.takeProcessed target).1 else []) = _
      rw [if_pos rfl, Host.takeProcessed, missing]
      rfl
    · show (s.host.links.modify target _).get? target = _
      rw [Table.get?_modify, if_pos rfl, missing]
      rfl
  | sever target =>
    obtain rfl : target = link := Option.some.inj hself
    refine ⟨ite_self _, rfl, .inl ?_⟩
    show (s.host.links.modify target _).get? target = _
    rw [Table.get?_modify, if_pos rfl, missing]
    rfl
  | register call => cases hself

/-- A session goes on running, whatever is done with links, and its table of kinds only grows. -/
theorem next_running (running : s.Running) (op : LinkOp) :
    (op.next s).Running ∧ s.registry.kinds <+: (op.next s).registry.kinds := by
  have goOn : (∃ w, Evolves s.host w ∧ op.next s = { s with host := w }) →
      (op.next s).Running ∧ s.registry.kinds <+: (op.next s).registry.kinds := by
    rintro ⟨w, hev, hnext⟩
    rw [hnext]
    exact ⟨running.evolves hev, List.prefix_refl _⟩
  cases op with
  | newLink => exact goOn ⟨_, .single (.link _), rfl⟩
  | put target e => exact goOn (Act.sendExpr_evolves s target e)
  | publish target =>
    rw [next, outcome_publish] at goOn ⊢
    exact goOn (Act.sendExpr_evolves s target s.registry.expr)
  | process target => exact goOn (Act.evaluateLink_evolves s target)
  | take target => exact goOn ⟨_, .single (.modifyLink ..), rfl⟩
  | sever target => exact goOn ⟨_, .single (.modifyLink ..), rfl⟩
  | register call =>
    obtain ⟨calls, hcalls⟩ := running.registered
    refine ⟨⟨running.attached, ⟨calls ++ [call], ?_⟩, running.hosted⟩, ?_⟩
    · show s.registry.carryOut call = _
      rw [Registry.run_append, hcalls]
      rfl
    · exact s.registry.kinds_prefix_run [call]

end LinkOp

/-! ## Runs -/

/-- The table of kinds can be stored as an expression if eight bytes can count its kinds and their
texts. -/
theorem Registry.storable_expr {r : Registry} (few : r.size < UInt64.size)
    (short : ∀ kind ∈ r.kinds, kind.name.utf8ByteSize < UInt64.size ∧
      kind.message.utf8ByteSize < UInt64.size) : r.expr.Storable := by
  refine .function (by decide) ?_ ?_
  · rw [List.length_map]
    exact few
  · intro x hx
    obtain ⟨kind, hkind, rfl⟩ := List.mem_map.mp hx
    obtain ⟨hname, hmessage⟩ := short kind hkind
    have hvalue : (Expr.list [.integer (Int64.ofInt kind.id), .string kind.message]).Storable :=
      .function (by decide) (by decide : 2 < UInt64.size)
        (List.forall_mem_cons.mpr ⟨.integer _, List.forall_mem_singleton.mpr (.string hmessage)⟩)
    exact .function (by decide) (by decide : 2 < UInt64.size)
      (List.forall_mem_cons.mpr ⟨.string hname, List.forall_mem_singleton.mpr hvalue⟩)

/-- It can be stored if a table that has grown from it can. -/
theorem Registry.storable_expr_of_prefix {r later : Registry} (h : r.kinds <+: later.kinds)
    (storable : later.expr.Storable) : r.expr.Storable := by
  cases storable with
  | function bytes count all =>
    rw [List.length_map] at count
    refine .function bytes ?_ ?_
    · rw [List.length_map]
      exact Nat.lt_of_le_of_lt h.length_le count
    · intro x hx
      obtain ⟨kind, hkind, rfl⟩ := List.mem_map.mp hx
      exact all _ (List.mem_map_of_mem (h.subset hkind))

namespace Session

variable {s : Session} {ops : List LinkOp}

theorem runLinks_running (running : s.Running) (ops : List LinkOp) :
    (s.runLinks ops).Running ∧ s.registry.kinds <+: (s.runLinks ops).registry.kinds := by
  induction ops generalizing s with
  | nil => exact ⟨running, List.prefix_refl _⟩
  | cons op ops ih =>
    obtain ⟨hnext, hgrown⟩ := LinkOp.next_running running op
    obtain ⟨hrun, hmore⟩ := ih hnext
    exact ⟨hrun, hgrown.trans hmore⟩

/-- **Every link delivers**: what there is has the links' packets in order, and what there is not has
none. -/
def Delivers (s : Session) (accepted taken : Handle → List Expr) : Prop :=
  (∀ link l, s.host.links.get? link = some l → l.Delivered (accepted link) (taken link)) ∧
    ∀ link, s.host.links.get? link = none → accepted link = [] ∧ taken link = []

/-- **Run lemma.** What holds of the links is kept by every run. -/
theorem Delivers.runLinks {accepted taken : Handle → List Expr} (running : s.Running)
    (h : s.Delivers accepted taken) (sent : ∀ link e, LinkOp.put link e ∈ ops → e.Storable)
    (published : (s.runLinks ops).registry.expr.Storable) :
    (s.runLinks ops).Delivers (fun link => accepted link ++ s.acceptedBy link ops)
      (fun link => taken link ++ s.takenFrom link ops) := by
  induction ops generalizing s accepted taken with
  | nil =>
    simp only [acceptedBy, takenFrom, List.append_nil]
    exact h
  | cons op ops ih =>
    obtain ⟨hrunning, -⟩ := LinkOp.next_running running op
    have hstorable : ∀ link, ∀ e ∈ op.accepted s link, e.Storable := by
      intro link e he
      unfold LinkOp.accepted at he
      split at he
      · cases op with
        | put target sent' =>
          rw [List.mem_singleton.mp he]
          exact sent target sent' List.mem_cons_self
        | publish target =>
          rw [List.mem_singleton.mp he]
          exact Registry.storable_expr_of_prefix (runLinks_running running (_ :: ops)).2 published
        | _ => cases he
      · cases he
    have hstep : (op.next s).Delivers (fun link => accepted link ++ op.accepted s link)
        (fun link => taken link ++ op.taken s link) := by
      constructor
      · intro link l' hl'
        cases hlink : s.host.links.get? link with
        | some l =>
          obtain ⟨l'', hnext, step⟩ := LinkOp.next_of_live running hlink
          obtain rfl := Option.some.inj (hl'.symm.trans hnext)
          exact (h.1 link l hlink).step step (hstorable link)
        | none =>
          obtain ⟨haccepted, htaken, hnext⟩ := LinkOp.next_of_missing running hlink
          obtain ⟨hnone, hnone'⟩ := h.2 link hlink
          rcases hnext with hnext | hnext
          · rw [hnext] at hl'
            cases hl'
          · obtain rfl := Option.some.inj (hnext.symm.trans hl')
            dsimp only
            rw [haccepted, htaken, hnone, hnone']
            exact .new
      · intro link hl'
        cases hlink : s.host.links.get? link with
        | some l =>
          obtain ⟨l', hnext, -⟩ := LinkOp.next_of_live running hlink
          rw [hnext] at hl'
          cases hl'
        | none =>
          obtain ⟨haccepted, htaken, -⟩ := LinkOp.next_of_missing running hlink
          obtain ⟨hnone, hnone'⟩ := h.2 link hlink
          dsimp only
          rw [haccepted, htaken, hnone, hnone']
          exact ⟨rfl, rfl⟩
    have hrest := ih hrunning hstep (fun link e he => sent link e (List.mem_cons_of_mem _ he)) published
    simp only [List.append_assoc] at hrest
    exact hrest

/-- A broken link stays as it is, whatever is done with links. -/
theorem runLinks_of_broken (running : s.Running) {link : Handle} {l : Link}
    (live : s.host.links.get? link = some l) (broken : l.broken = true) (ops : List LinkOp) :
    ∃ l', (s.runLinks ops).host.links.get? link = some l' ∧ l'.broken = true ∧
      l'.pending = l.pending ∧ l'.symbols = l.symbols ∧ s.acceptedBy link ops = [] ∧
      s.takenFrom link ops ++ l'.processed = l.processed := by
  induction ops generalizing s l with
  | nil => exact ⟨l, live, broken, rfl, rfl, rfl, rfl⟩
  | cons op ops ih =>
    obtain ⟨l₁, hnext, step⟩ := LinkOp.next_of_live running live
    obtain ⟨hbroken, hpending, hsymbols, haccepted, hprocessed⟩ := step.of_broken broken
    obtain ⟨l₂, hrun, hbroken', hpending', hsymbols', haccepted', hprocessed'⟩ :=
      ih (LinkOp.next_running running op).1 hnext hbroken
    refine ⟨l₂, hrun, hbroken', hpending'.trans hpending, hsymbols'.trans hsymbols, ?_, ?_⟩
    · rw [acceptedBy, haccepted, haccepted']
      rfl
    · rw [takenFrom, List.append_assoc, hprocessed', hprocessed]

end Session

/-- **Links deliver in order, exactly once and independently.** After any operations on any links, from
a session without links on, as far as eight bytes can count what is sent: the packets taken from a
link, then those that it has processed, then those that wait on it are the packets that it has
accepted; and a symbol stands for what the last assignment to it among the packets processed says. What
is no link has accepted nothing. A link refuses to be processed, and refuses packets, exactly if it
does not exist or is broken; otherwise all that waits on it is processed. A broken link accepts and
evaluates nothing any more. An operation on one link leaves every other one. -/
theorem links_deliver {s t : Session} {ops : List LinkOp} (running : s.Running)
    (unopened : ∀ link, s.host.links.get? link = none) (run : s.runLinks ops = t)
    (sent : ∀ link e, LinkOp.put link e ∈ ops → e.Storable)
    (published : t.registry.expr.Storable) :
    (∀ link l, t.host.links.get? link = some l →
      (∃ waiting, l.pending.map Expr.decode = waiting.map .ok ∧
        s.takenFrom link ops ++ l.processed ++ waiting = s.acceptedBy link ops) ∧
      ∀ name value, t.host.boundValue? link name = some value ↔
        LastBinds (s.takenFrom link ops ++ l.processed) name value) ∧
    (∀ link, t.host.links.get? link = none →
      s.acceptedBy link ops = [] ∧ s.takenFrom link ops = []) ∧
    (∀ link, (∀ l, t.host.links.get? link = some l → l.broken = true) →
      Act.evaluateLink link t = .error (t.registry.errorOf .packetProcessing) t ∧
      ∀ e, Act.sendExpr link e t =
        .error (t.registry.errorOf (if link = Handle.null then .noLink else .packetRefused)) t) ∧
    (∀ link l, t.host.links.get? link = some l → l.broken = false →
      (∃ u l', Act.evaluateLink link t = .ok () u ∧ u.host.links.get? link = some l' ∧
        l'.pending = [] ∧ s.takenFrom link ops ++ l'.processed = s.acceptedBy link ops) ∧
      ∀ e, ∃ u, Act.sendExpr link e t = .ok () u ∧
        u.host.links.get? link = some (l.enqueue e.encode)) ∧
    (∀ link l more, t.host.links.get? link = some l → l.broken = true →
      ∃ l', (t.runLinks more).host.links.get? link = some l' ∧ l'.broken = true ∧
        l'.pending = l.pending ∧ l'.symbols = l.symbols ∧ t.acceptedBy link more = [] ∧
        t.takenFrom link more ++ l'.processed = l.processed) ∧
    (∀ (op : LinkOp) (link : Handle), op.target? t ≠ some link →
      (op.next t).host.links.get? link = t.host.links.get? link) := by
  subst run
  have hrunning := (Session.runLinks_running running ops).1
  have hstart : s.Delivers (fun _ => []) fun _ => [] := by
    constructor
    · intro link l hlink
      rw [unopened] at hlink
      cases hlink
    · intro link _
      exact ⟨rfl, rfl⟩
  obtain ⟨hlive, hmissing⟩ := hstart.runLinks running sent published
  refine ⟨?_, hmissing, ?_, ?_, ?_, ?_⟩
  · intro link l hlink
    have hdelivered := hlive link l hlink
    refine ⟨hdelivered.inOrder, ?_⟩
    intro name value
    show ((s.runLinks ops).host.links.get? link).bind (·.boundValue? name) = some value ↔ _
    rw [hlink]
    exact hdelivered.bound name value
  · intro link hbroken
    rw [evaluateLink_eq hrunning.attached]
    simp only [sendExpr_eq hrunning.attached hrunning.links_null]
    cases hlink : (s.runLinks ops).host.links.get? link with
    | none => exact ⟨rfl, fun _ => rfl⟩
    | some l =>
      have hproper : link ≠ Handle.null := hrunning.link_ne_null hlink
      simp [hbroken l hlink, hproper]
  · intro link l hlink hbroken
    constructor
    · obtain ⟨-, hdone, hpending, hall⟩ := (hlive link l hlink).process
      refine ⟨(s.runLinks ops).setLink link l.evaluatePending.2, l.evaluatePending.2, ?_,
        Session.get?_setLink .., hpending, hall⟩
      rw [evaluateLink_eq hrunning.attached, hlink]
      simp [hbroken, hdone]
    · intro e
      have hproper : link ≠ Handle.null := hrunning.link_ne_null hlink
      exact ⟨_, Act.sendExpr_of_live hrunning.attached hproper hlink hbroken e,
        Session.get?_setLink ..⟩
  · intro link l more hlink hbroken
    exact Session.runLinks_of_broken hrunning hlink hbroken more
  · intro op link hother
    exact LinkOp.links_next_of_other hrunning hother

/-- An assignment to a symbol. -/
def assigning (name : String) (value : Int64) : Expr :=
  Expr.evaluatePacket (Expr.set name (.integer value))

theorem storable_assigning {name : String} (value : Int64)
    (bytes : name.utf8ByteSize < UInt64.size) : (assigning name value).Storable := by
  have hset : (Expr.set name (.integer value)).Storable :=
    .function (by decide) (by decide : 2 < UInt64.size)
      (List.forall_mem_cons.mpr ⟨.symbol bytes, List.forall_mem_singleton.mpr (.integer value)⟩)
  exact .function (by decide) (by decide : 1 < UInt64.size) (List.forall_mem_singleton.mpr hset)

/-- Two links, of which the first one breaks, with packets for handles that are no links. -/
def severedLinks : List LinkOp :=
  [.newLink, .newLink, .register (.single "Stalled" "Too slow."), .put 1 (assigning "x" 3),
    .put 2 (.string "é"), .process 2, .publish 2, .process 1, .take 1, .put 1 (assigning "x" 4),
    .put 0 (.integer 7), .put 1 (assigning "y" 5), .process 1, .put 1 (.integer 8),
    .sever 1, .put 1 (.integer 9), .process 1, .put 3 (.integer 10)]

/-- The first link has kept its packets in order, and the symbol stands for the second value. -/
theorem links_deliver_severed :
    ({} : Session).acceptedBy 1 severedLinks =
      [assigning "x" 3, assigning "x" 4, assigning "y" 5, .integer 8] ∧
    ({} : Session).takenFrom 1 severedLinks = [assigning "x" 3] ∧
    (({} : Session).runLinks severedLinks).host.boundValue? 1 "x" = some (.integer 4) ∧
    ∃ l, (({} : Session).runLinks severedLinks).host.links.get? 1 = some l ∧ l.broken = true ∧
      l.processed = [assigning "x" 4, assigning "y" 5] ∧
      l.pending.map Expr.decode = [.ok (.integer 8)] := by
  have running : ({} : Session).Running := ⟨rfl, ⟨[], rfl⟩, ⟨[], .start⟩⟩
  have sent : ∀ link e, LinkOp.put link e ∈ severedLinks → e.Storable := by
    intro link e he
    simp only [severedLinks, List.mem_cons, List.not_mem_nil, reduceCtorEq, LinkOp.put.injEq,
      false_or, or_false] at he
    rcases he with ⟨-, rfl⟩ | ⟨-, rfl⟩ | ⟨-, rfl⟩ | ⟨-, rfl⟩ | ⟨-, rfl⟩ | ⟨-, rfl⟩ | ⟨-, rfl⟩ |
      ⟨-, rfl⟩
    · exact storable_assigning 3 (by decide)
    · exact .string (by decide)
    · exact storable_assigning 4 (by decide)
    · exact .integer 7
    · exact storable_assigning 5 (by decide)
    · exact .integer 8
    · exact .integer 9
    · exact .integer 10
  have published : (({} : Session).runLinks severedLinks).registry.expr.Storable :=
    Registry.storable_expr (by decide +kernel) (by decide +kernel)
  have haccepted : ({} : Session).acceptedBy 1 severedLinks =
      [assigning "x" 3, assigning "x" 4, assigning "y" 5, .integer 8] := by decide +kernel
  have htaken : ({} : Session).takenFrom 1 severedLinks = [assigning "x" 3] := by decide +kernel
  have hlink : ((({} : Session).runLinks severedLinks).host.links.get? 1).map
      (fun l => (l.broken, l.processed)) = some (true, [assigning "x" 4, assigning "y" 5]) := by
    decide +kernel
  obtain ⟨l, hl, hparts⟩ := Option.map_eq_some_iff.mp hlink
  obtain ⟨hbroken, hprocessed⟩ := Prod.mk.inj hparts
  obtain ⟨hdelivered, -⟩ := links_deliver running (fun _ => rfl) rfl sent published
  obtain ⟨⟨waiting, hreadable, horder⟩, hbound⟩ := hdelivered 1 l hl
  refine ⟨haccepted, htaken, ?_, l, hl, hbroken, hprocessed, ?_⟩
  · rw [hbound, htaken, hprocessed]
    refine ⟨[assigning "x" 3], assigning "x" 4, [assigning "y" 5], rfl, rfl, ?_⟩
    intro later hmem other
    rw [List.mem_singleton.mp hmem]
    simp [assigning, Expr.evaluatePacket, Expr.set]
  · -- what waits is what is left of the packets accepted
    rw [haccepted, htaken, hprocessed] at horder
    obtain rfl : waiting = [.integer 8] := List.append_cancel_left horder
    exact hreadable

end Marshal
