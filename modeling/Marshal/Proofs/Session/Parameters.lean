import Marshal.Proofs.Expr.Codec
import Marshal.Session.EntryPoint

/-!
# `Proofs.Session.Parameters` — the parameters of an error reach the host

The parameters of an error are encoded when they are attached, decoded at the boundary, wrapped into
an assignment, encoded again, put behind whatever waits on the link, decoded by the host and matched
by its evaluator. What comes out is what went in, and what goes wrong on the way stays without
consequence for the status of the call.

## Contents

* `evaluateAll_of_decodes`, `evaluate_assignment` — what processing does to one link;
* `deliverParams_of_live` — the delivery over a link that works;
* `Attempt`, `SymbolHistory`, `LastAccepted` — the choices of the symbol;
* `params_reach_host` — the parameters of a failed call, and its status.
-/

namespace Marshal

open Marshal.Text

/-! ## One link -/

namespace Link

/-- Packets that can be read are evaluated one after the other. -/
theorem evaluateAll_of_decodes {l : Link} {packets : List Bytes} {es : List Expr}
    (readable : packets.map Expr.decode = es.map .ok) :
    l.evaluateAll packets = (true, es.foldl evaluate l) := by
  induction packets generalizing l es with
  | nil =>
    obtain rfl : es = [] := List.map_eq_nil_iff.mp readable.symm
    rfl
  | cons packet packets ih =>
    cases es with
    | nil => cases readable
    | cons e es =>
      obtain ⟨hpacket, hrest⟩ := List.cons.inj readable
      rw [evaluateAll, hpacket]
      exact ih hrest

/-- Evaluating records the packet and leaves what waits. -/
theorem evaluate_eq (l : Link) (packet : Expr) : (l.evaluate packet).pending = l.pending ∧
    (l.evaluate packet).processed = l.processed ++ [packet] := by
  unfold evaluate
  cases assignment? packet <;> exact ⟨rfl, rfl⟩

theorem foldl_evaluate_eq (l : Link) (es : List Expr) :
    (es.foldl evaluate l).pending = l.pending ∧
      (es.foldl evaluate l).processed = l.processed ++ es := by
  induction es generalizing l with
  | nil => exact ⟨rfl, (List.append_nil _).symm⟩
  | cons e es ih =>
    obtain ⟨hpending, hprocessed⟩ := l.evaluate_eq e
    obtain ⟨ihpending, ihprocessed⟩ := ih (l.evaluate e)
    refine ⟨ihpending.trans hpending, ?_⟩
    rw [List.foldl_cons, ihprocessed, hprocessed, ← List.append_cons]

theorem boundValue?_bind_self (l : Link) (name : String) (value : Expr) :
    (l.bind name value).boundValue? name = some value := by
  simp [boundValue?, bind]

/-- **An assignment binds its symbol.** -/
theorem evaluate_assignment (l : Link) (name : String) (value : Expr) :
    (l.evaluate (Expr.evaluatePacket (Expr.set name value))).boundValue? name = some value :=
  l.boundValue?_bind_self name value

/-- The link after evaluating some expressions and an assignment behind them. -/
def assigned (l : Link) (es : List Expr) (name : String) (value : Expr) : Link :=
  (es ++ [Expr.evaluatePacket (Expr.set name value)]).foldl evaluate { l with pending := [] }

theorem assigned_spec (l : Link) (es : List Expr) (name : String) (value : Expr) :
    (l.assigned es name value).pending = [] ∧
      (l.assigned es name value).processed =
        l.processed ++ es ++ [Expr.evaluatePacket (Expr.set name value)] ∧
      (l.assigned es name value).boundValue? name = some value := by
  obtain ⟨hpending, hprocessed⟩ := foldl_evaluate_eq { l with pending := [] }
    (es ++ [Expr.evaluatePacket (Expr.set name value)])
  refine ⟨hpending, ?_, ?_⟩
  · rw [assigned, hprocessed, List.append_assoc]
  · rw [assigned, List.foldl_append]
    exact evaluate_assignment _ name value

end Link

/-! ## Delivery -/

namespace Session

/-- A link is to be had from an attached host only. -/
theorem of_currentLink {s : Session} {link : Handle} (h : s.currentLink = .ok link) :
    s.attached = true ∧ link ≠ Handle.null := by
  change (if s.ask Handle.null (·.currentLink) = Handle.null then _ else _) = _ at h
  split at h
  · cases h
  · next hnull =>
    cases h
    refine ⟨?_, hnull⟩
    cases hattached : s.attached with
    | true => rfl
    | false => exact absurd (ask_of_detached hattached _ _) hnull

/-- The session with another state of a link. -/
def setLink (s : Session) (link : Handle) (l : Link) : Session :=
  { s with host := { s.host with links := s.host.links.insert link l } }

theorem get?_setLink (s : Session) (link : Handle) (l : Link) :
    (s.setLink link l).host.links.get? link = some l := Table.get?_insert_self _ _ _

end Session

namespace Act

variable {s : Session} {link : Handle} {l : Link} {es : List Expr}

/-- A link that works takes a packet. -/
theorem sendExpr_of_live (attached : s.attached = true) (proper : link ≠ Handle.null)
    (live : s.host.links.get? link = some l) (unbroken : l.broken = false) (e : Expr) :
    sendExpr link e s = .ok () (s.setLink link (l.enqueue e.encode)) := by
  have accepted : s.host.enqueuePacket link e.encode =
      (true, { s.host with links := s.host.links.insert link (l.enqueue e.encode) }) := by
    simp [Host.enqueuePacket, live, unbroken]
  simp [sendExpr, request, Session.request, Session.setLink, attached, proper, accepted, bind,
    EStateM.bind, pure, EStateM.pure]

/-- A link that works evaluates what waits on it. -/
theorem evaluateLink_of_live (attached : s.attached = true)
    (live : s.host.links.get? link = some l) (unbroken : l.broken = false)
    (readable : l.pending.map Expr.decode = es.map .ok) :
    evaluateLink link s = .ok () (s.setLink link (es.foldl Link.evaluate { l with pending := [] })) := by
  have evaluated : l.evaluatePending = (true, es.foldl Link.evaluate { l with pending := [] }) :=
    Link.evaluateAll_of_decodes readable
  have done : s.host.evaluateLink link = (true, { s.host with
      links := s.host.links.insert link (es.foldl Link.evaluate { l with pending := [] }) }) := by
    simp [Host.evaluateLink, live, unbroken, evaluated]
  simp [evaluateLink, request, Session.request, Session.setLink, attached, done, bind,
    EStateM.bind, pure, EStateM.pure]

/-- What is sent over a link that works is read back and evaluated behind the packets that wait. -/
theorem evaluateLink_sendExpr {e : Expr} (attached : s.attached = true)
    (proper : link ≠ Handle.null) (live : s.host.links.get? link = some l)
    (unbroken : l.broken = false) (readable : l.pending.map Expr.decode = es.map .ok)
    (storable : e.Storable) :
    ∃ t u, sendExpr link e s = .ok () t ∧ evaluateLink link t = .ok () u ∧
      u.host.links.get? link =
        some ((es ++ [e]).foldl Link.evaluate { l with pending := [] }) := by
  have hreadable : (l.enqueue e.encode).pending.map Expr.decode = (es ++ [e]).map .ok := by
    rw [Link.enqueue, List.map_append, readable, List.map_append, List.map_singleton,
      Expr.decode_encode storable, List.map_singleton]
  have hsent := sendExpr_of_live attached proper live unbroken e
  have hattached : (s.setLink link (l.enqueue e.encode)).attached = true := attached
  have hdone := evaluateLink_of_live hattached (s.get?_setLink link _) unbroken hreadable
  exact ⟨_, _, hsent, hdone, Session.get?_setLink _ link _⟩

/-- **An assignment is carried out over a link that works.** -/
theorem assignParams_of_live {symbol : String} {params : Expr} (current : s.currentLink = .ok link)
    (live : s.host.links.get? link = some l) (unbroken : l.broken = false)
    (readable : l.pending.map Expr.decode = es.map .ok)
    (storable : (Expr.evaluatePacket (Expr.set symbol params)).Storable) :
    ∃ t, assignParams symbol params s = .ok () t ∧
      t.host.links.get? link = some (l.assigned es symbol params) := by
  obtain ⟨attached, proper⟩ := Session.of_currentLink current
  obtain ⟨t, u, hsent, hdone, hlink⟩ :=
    evaluateLink_sendExpr attached proper live unbroken readable storable
  have hread : (read (·.currentLink) : Act Handle) s = .ok link s := by rw [read_eq, current]
  refine ⟨u, ?_, hlink⟩
  show EStateM.bind (read (·.currentLink)) _ s = _
  rw [EStateM.bind, hread]
  show EStateM.bind (sendExpr link _) _ s = _
  rw [EStateM.bind, hsent]
  exact hdone

end Act

/-- **Parameters are delivered over a link that works.** -/
theorem Session.deliverParams_of_live {s : Session} {link : Handle} {l : Link} {es : List Expr}
    {symbol : String} {params : List Expr} (e : Raised) (current : s.currentLink = .ok link)
    (live : s.host.links.get? link = some l) (unbroken : l.broken = false)
    (readable : l.pending.map Expr.decode = es.map .ok) (all : ∀ p ∈ params, p.Storable)
    (few : params.length < UInt64.size) (short : symbol.utf8ByteSize < UInt64.size) :
    ∃ t, s.deliverParams (e.attachParams params) symbol = (0, t) ∧
      t.host.links.get? link = some (l.assigned es symbol (Expr.list params)) := by
  have hlist : (Expr.list params).Storable := .function (by decide) few all
  have hset : (Expr.set symbol (Expr.list params)).Storable :=
    .function (by decide) (by decide : 2 < UInt64.size)
      (List.forall_mem_cons.mpr ⟨.symbol short, List.forall_mem_singleton.mpr hlist⟩)
  have hpacket : (Expr.evaluatePacket (Expr.set symbol (Expr.list params))).Storable :=
    .function (by decide) (by decide : 1 < UInt64.size) (List.forall_mem_singleton.mpr hset)
  obtain ⟨t, hassigned, hlink⟩ := Act.assignParams_of_live current live unbroken readable hpacket
  refine ⟨t, ?_, hlink⟩
  rw [deliverParams, Raised.attachParams]
  dsimp only
  rw [Expr.decode_encode hlist]
  dsimp only
  rw [hassigned]

/-! ## Choosing the symbol -/

/-- An attempt to choose the symbol: by the host, with the bytes of a text or without a text, or from
within the library. -/
inductive Attempt
  | byHost (symbol : Option Bytes)
  | byLibrary (symbol : String)
  deriving DecidableEq, Repr

/-- Which symbol an attempt chooses. The bytes of the host have to be a text in UTF-8. -/
inductive Attempt.Accepted : Attempt → String → Prop
  | byHost (symbol : String) : Accepted (.byHost (some (bytesOf symbol))) symbol
  | byLibrary (symbol : String) : Accepted (.byLibrary symbol) symbol

/-- The symbol that was accepted last. -/
inductive LastAccepted (first : String) : List Attempt → String → Prop
  | first : LastAccepted first [] first
  | accepted {attempts : List Attempt} {a : Attempt} {symbol : String} (h : a.Accepted symbol) :
      LastAccepted first (attempts ++ [a]) symbol
  | rejected {attempts : List Attempt} {a : Attempt} {symbol : String}
      (before : LastAccepted first attempts symbol) (h : ∀ other, ¬ a.Accepted other) :
      LastAccepted first (attempts ++ [a]) symbol

/-- What happens to a session: attempts to choose the symbol, and between them anything else. -/
inductive SymbolHistory (start : Session) : List Attempt → Session → Prop
  | start : SymbolHistory start [] start
  | byHost {attempts : List Attempt} {s : Session} (h : SymbolHistory start attempts s)
      (symbol : Option Bytes) :
      SymbolHistory start (attempts ++ [.byHost symbol]) (s.setSymbol symbol).2
  | byLibrary {attempts : List Attempt} {s : Session} (h : SymbolHistory start attempts s)
      (symbol : String) :
      SymbolHistory start (attempts ++ [.byLibrary symbol]) (s.useSymbol symbol)
  | other {attempts : List Attempt} {s t : Session} (h : SymbolHistory start attempts s)
      (same : t.symbol = s.symbol) : SymbolHistory start attempts t

/-- **The host's choice is accepted if it is a text in UTF-8**, and otherwise changes nothing. -/
theorem Session.symbol_setSymbol (s : Session) (symbol : Option Bytes) :
    (Attempt.byHost symbol).Accepted (s.setSymbol symbol).2.symbol ∨
      (s.setSymbol symbol).2.symbol = s.symbol ∧
        ∀ other, ¬ (Attempt.byHost symbol).Accepted other := by
  cases symbol with
  | none =>
    refine .inr ⟨rfl, ?_⟩
    intro other h
    cases h
  | some bytes =>
    cases hdecoded : Utf8.decode bytes with
    | ok chars =>
      have hchosen : s.setSymbol (some bytes) = (0, s.useSymbol (String.ofList chars)) := by
        rw [setSymbol, Act.atBoundary, chooseSymbol, hdecoded]
        rfl
      rw [hchosen, ← bytesOf_of_decode hdecoded]
      exact .inl (.byHost _)
    | error fault =>
      have hrefused : (s.setSymbol (some bytes)).2.symbol = s.symbol := by
        rw [setSymbol, Act.atBoundary, chooseSymbol, hdecoded]
        rfl
      refine .inr ⟨hrefused, ?_⟩
      intro other h
      cases h
      rw [decode_bytesOf] at hdecoded
      cases hdecoded

theorem SymbolHistory.lastAccepted {start s : Session} {attempts : List Attempt}
    (h : SymbolHistory start attempts s) : LastAccepted start.symbol attempts s.symbol := by
  induction h with
  | start => exact .first
  | byHost h symbol ih =>
    rcases Session.symbol_setSymbol _ symbol with haccepted | ⟨hsame, hrejected⟩
    · exact .accepted haccepted
    · rw [hsame]
      exact .rejected ih hrejected
  | byLibrary h symbol ih => exact .accepted (.byLibrary symbol)
  | other h same ih => rwa [same]

/-! ## A failed call -/

theorem Session.settle_raised (s : Session) (e : Raised) :
    s.settle (.raised e) = (e.kind.id, (s.deliverParams e s.symbol).2.keepError e) := rfl

/-- **The parameters of an error reach the host.** A body of a call fails with parameters, in a
session that any choices of the symbol lead to. If the link works then and what waits on it can be
read, the parameters are what the last accepted symbol stands for on that link, as far as eight bytes
can count them and their texts. Whatever the link is like, the status of the call is the number of the
error, and the error is kept. -/
theorem params_reach_host {start s t : Session} {attempts : List Attempt} {body : Act Unit}
    {e : Raised} {params : List Expr} (history : SymbolHistory start attempts t)
    (failed : body s = .error (e.attachParams params) t) :
    (body.atBoundary s).1 = e.kind.id ∧
      (body.atBoundary s).2.lastError = some (e.attachParams params) ∧
      LastAccepted start.symbol attempts t.symbol ∧
      ∀ (link : Handle) (l : Link) (es : List Expr), t.currentLink = .ok link →
        t.host.links.get? link = some l → l.broken = false →
        l.pending.map Expr.decode = es.map .ok →
        (∀ p ∈ params, p.Storable) → params.length < UInt64.size →
        t.symbol.utf8ByteSize < UInt64.size →
        ∃ l', (body.atBoundary s).2.host.links.get? link = some l' ∧ l'.pending = [] ∧
          l'.processed = l.processed ++ es ++
            [Expr.evaluatePacket (Expr.set t.symbol (Expr.list params))] ∧
          (body.atBoundary s).2.host.boundValue? link t.symbol = some (Expr.list params) := by
  have hboundary : body.atBoundary s =
      (e.kind.id, (t.deliverParams (e.attachParams params) t.symbol).2.keepError
        (e.attachParams params)) := by
    rw [Act.atBoundary, failed]
    exact t.settle_raised _
  rw [hboundary]
  refine ⟨rfl, rfl, history.lastAccepted, ?_⟩
  intro link l es current live unbroken readable all few short
  obtain ⟨u, hdelivered, hlink⟩ :=
    Session.deliverParams_of_live e current live unbroken readable all few short
  rw [hdelivered]
  obtain ⟨hpending, hprocessed, hbound⟩ := l.assigned_spec es t.symbol (Expr.list params)
  refine ⟨_, hlink, hpending, hprocessed, ?_⟩
  show (u.host.links.get? link).bind (·.boundValue? t.symbol) = _
  rw [hlink]
  exact hbound

/-- A number, a real that is no number and a nested list. -/
def stalledDetails : List Expr :=
  [.integer 3, .real ⟨0x7ff8000000000001⟩, Expr.list [.string "é"]]

/-- A session in which the host has chosen a symbol and then none, and has got a link on which a
packet waits. -/
def waitingSession : Session :=
  { ((({} : Session).setSymbol (some (bytesOf "Details"))).2.setSymbol none).2 with
    attached := true
    host := { nextId := 2, currentLink := 1,
              links := ({} : Table Link).insert 1 { pending := [(Expr.integer 8).encode] } } }

/-- A call that only fails. -/
def stalledCall : Act Unit :=
  fun s => .error ((Raised.ofKind ⟨-39, "Stalled", "Too slow."⟩).attachParams stalledDetails) s

/-- The accepted symbol stands for the parameters, behind the packet that waited. -/
theorem params_reach_host_waiting :
    SymbolHistory {} [.byHost (some (bytesOf "Details")), .byHost none] waitingSession ∧
      (stalledCall.atBoundary waitingSession).1 = -39 ∧
      (stalledCall.atBoundary waitingSession).2.host.boundValue? 1 "Details" =
        some (Expr.list stalledDetails) ∧
      ∃ l, (stalledCall.atBoundary waitingSession).2.host.links.get? 1 = some l ∧
        l.pending = [] ∧
        l.processed = [.integer 8,
          Expr.evaluatePacket (Expr.set "Details" (Expr.list stalledDetails))] := by
  have history : SymbolHistory {}
      [.byHost (some (bytesOf "Details")), .byHost none] waitingSession :=
    .other (.byHost (.byHost .start _) _) rfl
  have failed : stalledCall waitingSession = .error
      ((Raised.ofKind ⟨-39, "Stalled", "Too slow."⟩).attachParams stalledDetails)
      waitingSession := rfl
  obtain ⟨hstatus, -, -, hdelivered⟩ := params_reach_host history failed
  -- the state in which the call fails
  have hsymbol : waitingSession.symbol = "Details" := by decide +kernel
  have hcurrent : waitingSession.currentLink = .ok 1 := rfl
  have hlive : waitingSession.host.links.get? 1 =
      some { pending := [(Expr.integer 8).encode] } := rfl
  have hall : ∀ p ∈ stalledDetails, p.Storable := by
    have hinner : (Expr.list [.string "é"]).Storable :=
      .function (by decide) (by decide) (List.forall_mem_singleton.mpr (.string (by decide)))
    simp only [stalledDetails, List.forall_mem_cons]
    exact ⟨.integer 3, .real _, hinner, List.forall_mem_nil _⟩
  rw [hsymbol] at hdelivered
  obtain ⟨l, hlink, hpending, hprocessed, hbound⟩ := hdelivered 1 _ [.integer 8] hcurrent hlive rfl
    (congrArg (fun e => [e]) (Expr.decode_encode (.integer 8))) hall (by decide) (by decide)
  exact ⟨history, hstatus, hbound, l, hlink, hpending, hprocessed⟩

end Marshal
