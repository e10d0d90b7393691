import Marshal.Proofs.Collection.Insertions
import Marshal.Proofs.Container.Separation
import Marshal.Session.Attachment
import Marshal.Session.SideChannel

/-!
# `Proofs.Session.Workspace` — the library works through requests

Whatever the library does, it does to the host by requests, and it does nothing else to the session.
Without the host's callback table it makes none. So what every request keeps, every operation keeps,
and what the operations are does not matter.

## Contents

* `Act.Served` — an action that works through requests, and how such actions compose;
* `LibraryOp`, `LibraryOp.act` — everything that a library does with containers, nodes and links;
* `LibraryOp.served` — every operation works through requests;
* `Workspace`, `Workspace.run` — a session with the variables of a library, and runs of it;
* `Workspace.run_of_detached` — without a table nothing happens.
-/

namespace Marshal

open Marshal.Host

/-! ## Actions that work through requests -/

/-- **An action works through requests** if these are all that it does to the session, and it makes
none without a table. -/
def Act.Served {α : Type} (act : Act α) : Prop :=
  ∀ s, ∃ requests : List Request, (outcome act s).2 = { s with host := s.host.run requests } ∧
    (s.attached = false → requests = [])

namespace Act.Served

variable {α β : Type}

theorem pure (a : α) : Served (Pure.pure a) := fun _ => ⟨[], rfl, fun _ => rfl⟩

theorem fail (fault : Fault) : Served (Act.fail fault : Act α) := fun _ => ⟨[], rfl, fun _ => rfl⟩

theorem ofExcept (e : Except Fault α) : Served (Act.ofExcept e) := by
  cases e with
  | ok a => exact pure a
  | error fault => exact fail fault

theorem read (f : Session → Except Fault α) : Served (Act.read f) := fun s =>
  ⟨[], congrArg Prod.snd (outcome_read f s), fun _ => rfl⟩

/-- One action after the other makes the requests of both. -/
theorem bind {act : Act α} {f : α → Act β} (hact : Served act) (hf : ∀ a, Served (f a)) :
    Served (act >>= f) := by
  intro s
  obtain ⟨first, hfirst, none⟩ := hact s
  rw [outcome_bind]
  rcases hout : outcome act s with ⟨_ | a, t⟩
  · rw [hout] at hfirst
    exact ⟨first, hfirst, none⟩
  · rw [hout] at hfirst
    dsimp only at hfirst ⊢
    subst hfirst
    obtain ⟨later, hlater, none'⟩ := hf a { s with host := s.host.run first }
    refine ⟨first ++ later, ?_, fun detached => ?_⟩
    · rw [hlater]
      simp only [Host.run, List.foldl_append]
    · rw [none detached, none' detached]
      rfl

/-- What an action reads of the session may decide what it does. -/
theorem get {f : Session → Act β} (hf : ∀ s, Served (f s)) : Served (MonadState.get >>= f) :=
  fun s => hf s s

/-- A single request. -/
theorem request {detached : α} {action : Host → α × Host} (r : Request)
    (answers : ∀ w, (action w).2 = w.answer r) : Served (Act.request detached action) := by
  intro s
  by_cases hattached : s.attached = true
  · refine ⟨[r], ?_, fun detached => absurd hattached (by simp [detached])⟩
    rw [outcome_request hattached, answers]
    rfl
  · have hnone := Session.request_of_detached (Bool.eq_false_iff.mpr hattached) detached action
    refine ⟨[], ?_, fun _ => rfl⟩
    rw [outcome, Act.request, hnone]
    rfl

theorem order {action : Host → Host} (r : Request) (answers : ∀ w, action w = w.answer r) :
    Served (Act.order action) := request r answers

/-- An action that is left out if nothing is to be done. -/
theorem ite {act act' : Act α} {p : Prop} [Decidable p] (h : Served act) (h' : Served act') :
    Served (if p then act else act') := by
  split
  · exact h
  · exact h'

/-! ### Handles and containers -/

theorem releaseHandle (kind : ContainerKind) (mode : Passing) (h : Handle) :
    Served (Act.releaseHandle kind mode h) := by
  unfold Act.releaseHandle
  refine ite (pure ()) ?_
  cases mode with
  | automatic => exact pure ()
  | constant => exact pure ()
  | manual =>
    cases kind with
    | collection => exact order (.freeCollection h) fun _ => rfl
    | tensor => exact order (.freeArray h) fun _ => rfl
    | numericArray => exact order (.freeArray h) fun _ => rfl
  | shared =>
    cases kind with
    | collection => exact pure ()
    | tensor => exact order (.disownArray h) fun _ => rfl
    | numericArray => exact order (.disownArray h) fun _ => rfl

/-- What is made of the host's answer makes no further requests. -/
theorem answered {detached : α} {action : Host → α × Host} {rest : α → Act β} (r : Request)
    (answers : ∀ w, (action w).2 = w.answer r) (hrest : ∀ a, Served (rest a)) :
    Served (Act.request detached action >>= rest) := (request r answers).bind hrest

/-- The host may answer with nothing. -/
theorem granted {rest : Option α → Act β} (refused : Served (rest none))
    (given : ∀ a, Served (rest (some a))) : ∀ answer, Served (rest answer)
  | none => refused
  | some a => given a

theorem copyHandle (kind : ContainerKind) (h : Handle) : Served (Act.copyHandle kind h) := by
  unfold Act.copyHandle
  refine ite (pure h) ?_
  cases kind with
  | collection => exact answered (.copyCollection h) (fun _ => rfl) (granted (fail _) pure)
  | tensor => exact answered (.copyArray h) (fun _ => rfl) (granted (fail _) pure)
  | numericArray => exact answered (.copyArray h) (fun _ => rfl) (granted (fail _) pure)

theorem release (c : Container) : Served c.release := releaseHandle c.kind c.mode c.handle

theorem clear (c : Container) : Served c.clear :=
  (releaseHandle c.kind c.mode c.handle).bind fun _ => pure _

theorem copy (c : Container) : Served c.copy := (copyHandle c.kind c.handle).bind fun _ => pure _

theorem replaceBy (c other : Container) : Served (c.replaceBy other) :=
  (copyHandle c.kind other.handle).bind fun _ => (clear c).bind fun _ => pure _

theorem newArray (type : ElementType) (dims : List Int) : Served (Act.newArray type dims) :=
  answered (.hostArray type dims) (fun _ => rfl) (granted (fail _) fun _ => pure _)

theorem newCollection : Served Act.newCollection :=
  answered .newCollection (fun _ => rfl) (granted (fail _) fun _ => pure _)

theorem convert (c : Container) (target : NumericType) (method : Method)
    (tolerance : Number.Real64) : Served (c.convert target method tolerance) := by
  refine answered (.convertArray c.handle target.code method.code tolerance) (fun w => ?_)
    (granted (fail _) fun _ => pure _)
  simp [answer, convertArrayByCode]

theorem write (c : Container) (type : ElementType) (start : Nat) (values : List Scalar) :
    Served (c.write type start values) :=
  (read _).bind fun _ =>
    (order (.writeArray c.handle start values) fun _ => rfl).bind fun _ => pure _

theorem arrayOf (type : ElementType) (dims : List Int) (values : List Scalar) :
    Served (Act.arrayOf type dims values) := by
  refine (newArray type dims).bind fun c => (read _).bind fun present => ?_
  dsimp only
  split
  · exact (release c).bind fun _ => (fail _).bind fun _ =>
      (write c type 0 values).bind fun _ => pure c
  · exact (write c type 0 values).bind fun _ => pure c

/-! ### Insertions -/

theorem acceptNode (list : Handle) (label : Option Text.Bytes) (payload : Payload) :
    Served (Act.order (·.acceptNode list label payload)) :=
  order (.addNode list label payload) fun _ => rfl

theorem pushContainer (list : Container) (name : Option String) (c : Container) :
    Served (list.pushContainer name c) := by
  unfold Container.pushContainer
  cases insertionLabel list.handle name with
  | ok label => exact acceptNode list.handle label _
  | error fault => exact (release c).bind fun _ => fail fault

theorem insert (i : Insertion) : Served i.act := by
  obtain ⟨list, name, item⟩ := i
  have hslot : ∀ payload, Served (list.pushPayload name payload) := fun payload =>
    (ofExcept _).bind fun label => acceptNode list.handle label payload
  cases item with
  | value v =>
    refine (ofExcept _).bind fun label => ?_
    cases v with
    | text t =>
      dsimp only
      split
      · exact (fail _).bind fun _ => acceptNode list.handle label _
      · exact acceptNode list.handle label _
    | _ => exact acceptNode list.handle label _
  | container kind h => exact pushContainer list name ⟨kind, .manual, h⟩
  | slot payload => exact hslot payload
  | erased kind payload =>
    show Served (list.pushErased name kind payload)
    unfold Container.pushErased
    split
    · exact (fail _).bind fun _ => hslot _
    · exact hslot _

/-! ### Links -/

theorem sendExpr (link : Handle) (e : Expr) : Served (Act.sendExpr link e) := by
  have hsent : Served (Act.request false (·.enqueuePacket link e.encode) >>= fun accepted =>
      if accepted = true then Pure.pure () else Act.fail .packetRefused) :=
    answered (.putPacket link e.encode) (fun _ => rfl) fun _ => ite (pure ()) (fail _)
  unfold Act.sendExpr
  split
  · exact (fail _).bind fun _ => hsent
  · exact hsent

theorem evaluateLink (link : Handle) : Served (Act.evaluateLink link) :=
  answered (.processLink link) (fun _ => rfl) fun _ => ite (pure ()) (fail _)

theorem publishRegistry (link : Handle) : Served (Act.publishRegistry link) :=
  get fun s => sendExpr link s.registry.expr

theorem assignParams (symbol : String) (params : Expr) : Served (Act.assignParams symbol params) :=
  (read _).bind fun link => (sendExpr link _).bind fun _ => evaluateLink link

end Act.Served

/-- Delivering parameters works through requests, whether or not they arrive. -/
theorem Session.deliverParams_served (s : Session) (e : Raised) (symbol : String) :
    ∃ requests : List Request,
      (s.deliverParams e symbol).2 = { s with host := s.host.run requests } ∧
        (s.attached = false → requests = []) := by
  unfold deliverParams
  cases e.params with
  | none => exact ⟨[], rfl, fun _ => rfl⟩
  | some bytes =>
    dsimp only
    cases Expr.decode bytes with
    | error fault => exact ⟨[], rfl, fun _ => rfl⟩
    | ok params =>
      obtain ⟨requests, hsession, none⟩ := Act.Served.assignParams symbol params s
      refine ⟨requests, ?_, none⟩
      rw [← hsession, outcome]
      dsimp only
      cases Act.assignParams symbol params s <;> rfl

/-! ## Operations -/

/-- What a library does with its containers, which are in numbered variables, with nodes and with
links. A container can be made of any handle and in any mode, and what is inserted can hold any
handle. A reading is anything that looks at the variables and at the session. -/
inductive LibraryOp
  | move (op : SideOp)
  | adopt (x : Nat) (kind : ContainerKind) (mode : Passing) (h : Handle)
  | intoRaw (x : Nat)
  | insert (list : Nat) (name : Option String) (item : Item)
  | look (reading : Table Container → Session → Except Fault Unit)
  | sendExpr (link : Handle) (e : Expr)
  | evaluateLink (link : Handle)
  | publishRegistry (link : Handle)
  | deliverParams (e : Raised) (symbol : String)
  | checkAbort

namespace SideOp

variable {vars : Table Container}

theorem on_served (x : Nat) {act : Container → Act (Table Container)}
    (hact : ∀ c, (act c).Served) : (on vars x act).Served := by
  unfold on
  split
  · exact hact _
  · exact .pure vars

theorem store_served (x : Nat) (c : Container) : (store vars x c).Served := by
  have hvacate : (vacate vars x).Served := by
    unfold vacate
    split
    · exact .release _
    · exact .pure ()
  exact hvacate.bind fun _ => .pure _

/-- **Every operation on variables works through requests.** -/
theorem served (op : SideOp) : (op.act vars).Served := by
  cases op with
  | newArray x type dims => exact (Act.Served.newArray type dims).bind (store_served x)
  | arrayOf x type dims values => exact (Act.Served.arrayOf type dims values).bind (store_served x)
  | newList x => exact Act.Served.newCollection.bind (store_served x)
  | convert x y target method tolerance =>
    exact on_served y fun c => (Act.Served.convert c target method tolerance).bind (store_served x)
  | copy x y => exact on_served y fun c => (Act.Served.copy c).bind (store_served x)
  | assign x y =>
    exact on_served x fun c => on_served y fun other =>
      (Act.Served.replaceBy c other).bind fun _ => .pure _
  | take x y => exact on_served y fun c => store_served x _
  | view x y place kind constant =>
    refine on_served y fun c => (Act.Served.read _).bind fun b => ?_
    cases b.value with
    | view v => exact store_served x v
    | value _ => exact .pure vars
  | write x type start values =>
    exact on_served x fun c => (Act.Served.write c type start values).bind fun _ => .pure vars
  | pushValue list name v plain =>
    exact on_served list fun l => (Act.Served.insert ⟨l, name, .value v⟩).bind fun _ => .pure vars
  | pushPayload list name p plain =>
    exact on_served list fun l => (Act.Served.insert ⟨l, name, .slot p⟩).bind fun _ => .pure vars
  | pushErased list name kind p plain =>
    exact on_served list fun l =>
      (Act.Served.insert ⟨l, name, .erased kind p⟩).bind fun _ => .pure vars
  | push list name x =>
    exact on_served list fun l => on_served x fun c =>
      (Act.Served.pushContainer l name c).bind fun _ => .pure _
  | reset x => exact on_served x fun c => (Act.Served.clear c).bind fun _ => .pure _
  | drop x => exact on_served x fun c => (Act.Served.release c).bind fun _ => .pure _

end SideOp

namespace LibraryOp

/-- An operation on variables. Its value is what the variables are afterwards. -/
def act (vars : Table Container) : LibraryOp → Act (Table Container)
  | move op => op.act vars
  | adopt x kind mode h => SideOp.store vars x ⟨kind, mode, h⟩
  | intoRaw x => return vars.erase x
  | insert list name item => SideOp.on vars list fun l => do
    Insertion.act ⟨l, name, item⟩
    return vars
  | look reading => do
    Act.read (reading vars)
    return vars
  | sendExpr link e => do
    Act.sendExpr link e
    return vars
  | evaluateLink link => do
    Act.evaluateLink link
    return vars
  | publishRegistry link => do
    Act.publishRegistry link
    return vars
  | deliverParams e symbol => fun s => .ok vars (s.deliverParams e symbol).2
  | checkAbort => do
    Act.read Session.failIfAborted
    return vars

/-- The variables after an operation has failed. -/
def left (vars : Table Container) : LibraryOp → Table Container
  | move op => op.left vars
  | _ => vars

/-- **Whatever the library does, it does through requests.** -/
theorem served (op : LibraryOp) (vars : Table Container) : (op.act vars).Served := by
  cases op with
  | move op => exact op.served
  | adopt x kind mode h => exact SideOp.store_served x _
  | intoRaw x => exact .pure _
  | insert list name item =>
    exact SideOp.on_served list fun l => (Act.Served.insert _).bind fun _ => .pure vars
  | look reading => exact (Act.Served.read _).bind fun _ => .pure vars
  | sendExpr link e => exact (Act.Served.sendExpr link e).bind fun _ => .pure vars
  | evaluateLink link => exact (Act.Served.evaluateLink link).bind fun _ => .pure vars
  | publishRegistry link => exact (Act.Served.publishRegistry link).bind fun _ => .pure vars
  | deliverParams e symbol => exact fun s => s.deliverParams_served e symbol
  | checkAbort => exact (Act.Served.read _).bind fun _ => .pure vars

end LibraryOp

/-! ## Runs -/

/-- A session and the variables of a library that works in it. -/
structure Workspace where
  session : Session
  vars : Table Container := {}

namespace Workspace

/-- One operation. If it fails, what it has done so far stays done. -/
def step (ws : Workspace) (op : LibraryOp) : Workspace :=
  match op.act ws.vars ws.session with
  | .ok vars s => ⟨s, vars⟩
  | .error _ s => ⟨s, op.left ws.vars⟩

/-- Operations, one after the other. -/
def run (ws : Workspace) (ops : List LibraryOp) : Workspace := ops.foldl step ws

theorem session_step (ws : Workspace) (op : LibraryOp) :
    (ws.step op).session = (outcome (op.act ws.vars) ws.session).2 := by
  rw [step, outcome]
  cases op.act ws.vars ws.session <;> rfl

/-- **Without a table nothing happens**, whatever the library does. -/
theorem run_of_detached {ws : Workspace} (detached : ws.session.attached = false)
    (ops : List LibraryOp) : (ws.run ops).session = ws.session := by
  induction ops generalizing ws with
  | nil => rfl
  | cons op rest ih =>
    have hone : (ws.step op).session = ws.session := by
      obtain ⟨requests, hsession, none⟩ := op.served ws.vars ws.session
      rw [session_step, hsession, none detached]
      rfl
    exact (ih (by rw [hone]; exact detached)).trans hone

end Workspace

end Marshal
