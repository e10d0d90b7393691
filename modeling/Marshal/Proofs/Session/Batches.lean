import Marshal.Proofs.Host.Alike
import Marshal.Proofs.Session.Parameters

/-!
# `Proofs.Session.Batches` — what becomes of packets that cannot be read

Processing a link takes all that waits on it as one batch. The packets of the batch are evaluated one
after the other, up to the first that is no encoded expression. That one ends the batch: it is dropped,
and so are the packets behind it, whether they could have been read or not. A packet is therefore
evaluated exactly if everything before it in its batch can be read, and nothing is ever evaluated
twice or in another order.

## Contents

* `Link.readable`, `Link.evaluateAll_eq` — the packets of a batch that are evaluated;
* `Link.Processed` — a link after a batch;
* `Traffic`, `Host.trafficOf` — what a run puts on a link, processes as batches, and takes from it;
* `Link.Accounted` — a link after a run, settled by the traffic;
* `Host.settles`, `Host.accounted_run` — what one request does with a link, and what a run does;
* `batches_end_at_unreadable` — batches and runs of any host;
* `readable_packet_dropped` — a packet that is lost.
-/

namespace Marshal

open Marshal.Host Marshal.Text

/-! ## Batches -/

namespace Link

/-- The packets before the first that is no encoded expression, as expressions. -/
def readable : List Bytes → List Expr
  | [] => []
  | packet :: rest =>
    match Expr.decode packet with
    | .ok e => e :: readable rest
    | .error _ => []

/-- Packets that can be read are all read. -/
theorem readable_append {front : List Bytes} {es : List Expr}
    (hfront : front.map Expr.decode = es.map .ok) (behind : List Bytes) :
    readable (front ++ behind) = es ++ readable behind := by
  induction front generalizing es with
  | nil =>
    obtain rfl : es = [] := List.map_eq_nil_iff.mp hfront.symm
    rfl
  | cons packet front ih =>
    cases es with
    | nil => cases hfront
    | cons e es =>
      obtain ⟨hpacket, hrest⟩ := List.cons.inj hfront
      rw [List.cons_append, readable, hpacket, List.cons_append, ← ih hrest]

/-- **A batch ends** where it is read to the end, or at a packet that cannot be read. -/
theorem readable_spec (packets : List Bytes) :
    ∃ front behind, packets = front ++ behind ∧ front.map Expr.decode = (readable packets).map .ok ∧
      ∀ bad ∈ behind.head?, ∃ fault, Expr.decode bad = .error fault := by
  induction packets with
  | nil => exact ⟨[], [], rfl, rfl, by simp⟩
  | cons packet rest ih =>
    rw [readable]
    cases hpacket : Expr.decode packet with
    | error fault => exact ⟨[], packet :: rest, rfl, rfl, by simp [hpacket]⟩
    | ok e =>
      obtain ⟨front, behind, hrest, hfront, hbehind⟩ := ih
      refine ⟨packet :: front, behind, by rw [hrest, List.cons_append], ?_, hbehind⟩
      rw [List.map_cons, hpacket, hfront, List.map_cons]

/-- Evaluating a batch is evaluating what can be read of it, and it succeeds if that is all of it. -/
theorem evaluateAll_eq (l : Link) (packets : List Bytes) :
    l.evaluateAll packets =
      (decide ((readable packets).length = packets.length), (readable packets).foldl evaluate l) := by
  induction packets generalizing l with
  | nil => rfl
  | cons packet rest ih =>
    rw [evaluateAll, readable]
    cases Expr.decode packet with
    | error fault => rfl
    | ok e =>
      dsimp only
      rw [ih]
      simp

/-- Evaluating binds symbols by the symbols that there are. -/
theorem symbols_evaluate {l l' : Link} (h : l.symbols = l'.symbols) (packet : Expr) :
    (l.evaluate packet).symbols = (l'.evaluate packet).symbols := by
  unfold evaluate
  cases assignment? packet with
  | none => exact h
  | some assigned => simp only [bind, h]

theorem symbols_foldl_evaluate {l l' : Link} (h : l.symbols = l'.symbols) (es : List Expr) :
    (es.foldl evaluate l).symbols = (es.foldl evaluate l').symbols := by
  induction es generalizing l l' with
  | nil => exact h
  | cons e es ih => exact ih (symbols_evaluate h e)

theorem broken_foldl_evaluate (l : Link) (es : List Expr) :
    (es.foldl evaluate l).broken = l.broken := by
  induction es generalizing l with
  | nil => rfl
  | cons e es ih =>
    rw [List.foldl_cons, ih]
    unfold evaluate
    cases assignment? e <;> rfl

/-- **A link after a batch** of which some expressions have been evaluated: they have been recorded in
    their order behind what was there, their assignments are made, and nothing waits any more. -/
structure Processed (l : Link) (es : List Expr) (l' : Link) : Prop where
  pending : l'.pending = []
  processed : l'.processed = l.processed ++ es
  symbols : l'.symbols = (es.foldl evaluate l).symbols
  broken : l'.broken = l.broken

/-- Processing a link evaluates what can be read of the batch, and nothing waits any more whatever comes
    of the batch. -/
theorem processed_evaluatePending (l : Link) :
    l.Processed (readable l.pending) l.evaluatePending.2 := by
  obtain ⟨hpending, hprocessed⟩ := foldl_evaluate_eq { l with pending := [] } (readable l.pending)
  have hsymbols : ({ l with pending := [] } : Link).symbols = l.symbols := rfl
  rw [evaluatePending, evaluateAll_eq]
  exact ⟨hpending, hprocessed, symbols_foldl_evaluate hsymbols _, broken_foldl_evaluate _ _⟩

end Link

/-! ## One link over a run -/

/-- What a run does with one link: the packets that the link accepts, the batches that are processed,
    and the expressions that are taken. -/
structure Traffic where
  accepted : List Bytes := []
  batches : List (List Bytes) := []
  taken : List Expr := []

namespace Traffic

/-- The expressions that are evaluated: those of each batch up to its end. -/
def evaluated (t : Traffic) : List Expr := t.batches.flatMap Link.readable

/-- One after the other. -/
def andThen (t u : Traffic) : Traffic :=
  ⟨t.accepted ++ u.accepted, t.batches ++ u.batches, t.taken ++ u.taken⟩

end Traffic

namespace Host

/-- What a request does with a link. -/
def traffic (w : Host) (h : Handle) : Request → Traffic
  | .putPacket target packet =>
    if target = h ∧ (w.enqueuePacket h packet).1 = true then { accepted := [packet] } else {}
  | .processLink target =>
    match w.links.get? h with
    | some l => if target = h ∧ l.broken = false then { batches := [l.pending] } else {}
    | none => {}
  | .takeProcessed target => if target = h then { taken := (w.takeProcessed h).1 } else {}
  | _ => {}

/-- What a run does with a link. -/
def trafficOf (w : Host) (h : Handle) : List Request → Traffic
  | [] => {}
  | r :: rest => (w.traffic h r).andThen ((w.answer r).trafficOf h rest)

end Host

namespace Link

/-- **A link after a run** on which it has had some traffic: what waited and what has been accepted is
    what has been processed, batch by batch, and what waits now; what had been processed and what the
    batches came to is what has been taken and what is left; and the assignments are those of the
    batches. -/
structure Accounted (l : Link) (t : Traffic) (l' : Link) : Prop where
  pending : l.pending ++ t.accepted = t.batches.flatten ++ l'.pending
  processed : l.processed ++ t.evaluated = t.taken ++ l'.processed
  symbols : l'.symbols = (t.evaluated.foldl evaluate l).symbols

namespace Accounted

variable {l l' l'' : Link} {t u : Traffic}

theorem rest (l : Link) : Accounted l {} l := ⟨List.append_nil _, List.append_nil _, rfl⟩

theorem accept (l : Link) (packet : Bytes) :
    Accounted l { accepted := [packet] } (l.enqueue packet) := ⟨rfl, List.append_nil _, rfl⟩

theorem process (l : Link) : Accounted l { batches := [l.pending] } l.evaluatePending.2 := by
  have after := l.processed_evaluatePending
  have hevaluated : Traffic.evaluated { batches := [l.pending] } = readable l.pending :=
    List.append_nil _
  refine ⟨?_, ?_, ?_⟩
  · rw [after.pending]
    simp
  · rw [hevaluated, after.processed]
    rfl
  · rw [hevaluated, after.symbols]

theorem take (l : Link) : Accounted l { taken := l.processed } { l with processed := [] } :=
  ⟨List.append_nil _, rfl, rfl⟩

theorem sever (l : Link) : Accounted l {} { l with broken := true } :=
  ⟨List.append_nil _, List.append_nil _, rfl⟩

/-- One stretch of traffic and another one are settled together. -/
theorem andThen (first : Accounted l t l') (second : Accounted l' u l'') :
    Accounted l (t.andThen u) l'' := by
  have hevaluated : (t.andThen u).evaluated = t.evaluated ++ u.evaluated := List.flatMap_append
  constructor
  case pending =>
    show l.pending ++ (t.accepted ++ u.accepted) = (t.batches ++ u.batches).flatten ++ l''.pending
    rw [← List.append_assoc, first.pending, List.append_assoc, second.pending, List.flatten_append,
      List.append_assoc]
  case processed =>
    show l.processed ++ (t.andThen u).evaluated = t.taken ++ u.taken ++ l''.processed
    rw [hevaluated, ← List.append_assoc, first.processed, List.append_assoc, second.processed,
      List.append_assoc]
  case symbols =>
    rw [second.symbols, hevaluated, List.foldl_append]
    exact symbols_foldl_evaluate first.symbols u.evaluated

end Accounted

end Link

namespace Host

variable {made : List (Handle × Use)} {w : Host} {h : Handle} {l : Link}

theorem links_addArray? (w : Host) (a : Option Dense) : (w.addArray? a).2.links = w.links := by
  cases a <;> rfl

theorem links_appendNode (w : Host) (c : Handle) (name : Option Bytes) (p : Payload) :
    (w.appendNode c name p).links = w.links := by
  unfold appendNode
  split <;> rfl

/-- A packet put on a link. -/
theorem links_enqueuePacket (live : w.links.get? h = some l) (packet : Bytes) :
    (w.enqueuePacket h packet).1 = !l.broken ∧
      (w.enqueuePacket h packet).2.links.get? h =
        some (if l.broken then l else l.enqueue packet) := by
  unfold enqueuePacket
  rw [live]
  dsimp only
  cases hbroken : l.broken
  · exact ⟨rfl, Table.get?_insert_self ..⟩
  · exact ⟨rfl, live⟩

/-- **Processing a link as an equation.** -/
theorem evaluateLink_eq (live : w.links.get? h = some l) (unbroken : l.broken = false) :
    w.evaluateLink h =
      (decide ((Link.readable l.pending).length = l.pending.length),
        { w with links := w.links.insert h l.evaluatePending.2 }) := by
  unfold evaluateLink
  rw [live]
  dsimp only
  rw [if_neg (by rw [unbroken]; exact Bool.false_ne_true), Link.evaluatePending, Link.evaluateAll_eq]

/-- A host that copies collections goes on with the links that it has. -/
theorem links_copyCollection (past : History made w) (c : Handle) :
    (w.copyCollection c).2.links = w.links :=
  (untouched_copyCollection ⟨made, past⟩ c).2

/-- The requests that have to do with links. -/
def Request.onLinks : Request → Bool
  | .newLink | .putPacket .. | .processLink _ | .takeProcessed _ | .severLink _ => true
  | _ => false

/-- **Every other request** leaves the links. -/
theorem links_answer (past : History made w) {r : Request} (other : r.onLinks = false) :
    (w.answer r).links = w.links := by
  cases r with
  | newArray family code rank dims =>
    show (w.newArrayByCode family code rank dims).2.links = _
    unfold newArrayByCode
    dsimp only
    split
    · exact links_addArray? w _
    · rfl
  | hostArray => exact links_addArray? w _
  | copyArray => exact links_addArray? w _
  | convertArray source target method tolerance =>
    show (w.convertArrayByCode source target method tolerance).2.links = _
    unfold convertArrayByCode
    split
    · exact links_addArray? w _
    · rfl
  | freeArray => exact links_freeArray ..
  | copyCollection c => exact links_copyCollection past c
  | freeCollection c => exact (freeAll_frame w [.collection c]).2.1
  | addNode c name payload =>
    show (w.acceptNode c name payload).links = _
    unfold acceptNode
    split
    · exact links_appendNode ..
    · split
      · rfl
      · exact links_appendNode ..
    · exact links_appendNode ..
  | newLink => cases other
  | putPacket => cases other
  | processLink => cases other
  | takeProcessed => cases other
  | severLink => cases other
  | _ => rfl

theorem traffic_of_other {r : Request} (other : r.onLinks = false) : w.traffic h r = {} := by
  cases r with
  | putPacket => cases other
  | processLink => cases other
  | takeProcessed => cases other
  | _ => rfl

/-- What is put on one link is put on no other. -/
theorem links_enqueuePacket_of_ne {target : Handle} (apart : h ≠ target) (packet : Bytes) :
    (w.enqueuePacket target packet).2.links.get? h = w.links.get? h := by
  unfold enqueuePacket
  split
  · split
    · rfl
    · exact Table.get?_insert_of_ne _ _ apart
  · rfl

/-- Processing one link processes no other. -/
theorem links_evaluateLink_of_ne {target : Handle} (apart : h ≠ target) :
    (w.evaluateLink target).2.links.get? h = w.links.get? h := by
  unfold evaluateLink
  split
  · split
    · rfl
    · exact Table.get?_insert_of_ne _ _ apart
  · rfl

/-- A link that is broken is not processed. -/
theorem evaluateLink_of_broken (live : w.links.get? h = some l) (broken : l.broken = true) :
    w.evaluateLink h = (false, w) := by
  unfold evaluateLink
  rw [live]
  dsimp only
  rw [if_pos broken]

/-- A request leaves a link settled by what the request does with it. -/
def Settles (w : Host) (r : Request) (h : Handle) (l : Link) : Prop :=
  ∃ l', (w.answer r).links.get? h = some l' ∧ l.Accounted (w.traffic h r) l'

/-- So does one that does nothing with it. -/
theorem settles_of_quiet (live : w.links.get? h = some l) {r : Request}
    (same : (w.answer r).links.get? h = w.links.get? h) (quiet : w.traffic h r = {}) :
    w.Settles r h l := by
  refine ⟨l, same.trans live, ?_⟩
  rw [quiet]
  exact .rest l

theorem settles_putPacket (live : w.links.get? h = some l) (packet : Bytes) :
    w.Settles (.putPacket h packet) h l := by
  obtain ⟨haccepted, hlink⟩ := links_enqueuePacket live packet
  refine ⟨_, hlink, ?_⟩
  rw [traffic, haccepted]
  cases l.broken
  case false => simpa using Link.Accounted.accept l packet
  case true => simpa using Link.Accounted.rest l

theorem settles_processLink (live : w.links.get? h = some l) : w.Settles (.processLink h) h l := by
  have htraffic : w.traffic h (.processLink h) =
      if l.broken = false then { batches := [l.pending] } else {} := by
    rw [traffic, live]
    simp only [true_and]
  cases hbroken : l.broken
  case false =>
    refine ⟨l.evaluatePending.2, ?_, ?_⟩
    · show (w.evaluateLink h).2.links.get? h = _
      rw [evaluateLink_eq live hbroken]
      exact Table.get?_insert_self ..
    · rw [htraffic, if_pos hbroken]
      exact .process l
  case true =>
    refine settles_of_quiet live ?_ (htraffic.trans (if_neg (by simp [hbroken])))
    show (w.evaluateLink h).2.links.get? h = _
    rw [evaluateLink_of_broken live hbroken]

theorem settles_takeProcessed (live : w.links.get? h = some l) :
    w.Settles (.takeProcessed h) h l := by
  refine ⟨{ l with processed := [] }, ?_, ?_⟩
  · show (w.links.modify h _).get? h = _
    rw [Table.get?_modify, if_pos rfl, live]
    rfl
  · rw [traffic, if_pos rfl, takeProcessed, live]
    exact .take l

theorem settles_severLink (live : w.links.get? h = some l) : w.Settles (.severLink h) h l := by
  refine ⟨{ l with broken := true }, ?_, .sever l⟩
  show (w.links.modify h _).get? h = _
  rw [Table.get?_modify, if_pos rfl, live]
  rfl

/-- **Step lemma.** Every request leaves a link settled: one that is for the link by what it does, and
    one that is for another by doing nothing. -/
theorem settles (past : History made w) (live : w.links.get? h = some l) (r : Request) :
    w.Settles r h l := by
  by_cases other : r.onLinks = false
  · have same := congrArg (·.get? h) (links_answer past other)
    exact settles_of_quiet live same (traffic_of_other other)
  cases r with
  | newLink =>
    have hlt : h < w.nextId := (past.sound.lt_next (u := .link) (Table.contains_of_get? live)).2
    exact settles_of_quiet live (Table.get?_insert_of_ne _ _ (Nat.ne_of_lt hlt)) rfl
  | putPacket target packet =>
    rcases eq_or_ne h target with rfl | apart
    · exact settles_putPacket live packet
    · exact settles_of_quiet live (links_enqueuePacket_of_ne apart packet)
        (if_neg fun hs => apart hs.1.symm)
  | processLink target =>
    rcases eq_or_ne h target with rfl | apart
    · exact settles_processLink live
    · refine settles_of_quiet live (links_evaluateLink_of_ne apart) ?_
      rw [traffic, live]
      exact if_neg fun hs => apart hs.1.symm
  | takeProcessed target =>
    rcases eq_or_ne h target with rfl | apart
    · exact settles_takeProcessed live
    · refine settles_of_quiet live ?_ (if_neg apart.symm)
      show (w.links.modify target _).get? h = _
      rw [Table.get?_modify, if_neg apart]
  | severLink target =>
    rcases eq_or_ne h target with rfl | apart
    · exact settles_severLink live
    · refine settles_of_quiet live ?_ rfl
      show (w.links.modify target _).get? h = _
      rw [Table.get?_modify, if_neg apart]
  | _ => exact absurd rfl other

/-- **Run lemma.** A run leaves a link settled by what the run does with it. -/
theorem accounted_run (past : History made w) (live : w.links.get? h = some l)
    (requests : List Request) :
    ∃ l', (w.run requests).links.get? h = some l' ∧ l.Accounted (w.trafficOf h requests) l' := by
  induction requests generalizing made w l with
  | nil => exact ⟨l, live, .rest l⟩
  | cons r rest ih =>
    obtain ⟨l', live', first⟩ := settles past live r
    obtain ⟨more, past'⟩ := past.answer r
    obtain ⟨l'', live'', second⟩ := ih past' live'
    exact ⟨l'', live'', first.andThen second⟩

end Host

/-! ## The statement -/

/-- **A batch ends at the first packet that cannot be read**, or is read to its end. Processing a link
    fails at such a packet. What stands before has been evaluated, and neither that packet nor those
    behind it wait any more. A batch that can be read is evaluated as a whole. -/
structure Host.EndsBatch (w : Host) (h : Handle) (l : Link) : Prop where
  splits : ∃ front behind, l.pending = front ++ behind ∧
    front.map Expr.decode = (Link.readable l.pending).map .ok ∧
      ∀ bad ∈ behind.head?, ∃ fault, Expr.decode bad = .error fault
  stopped : ∀ front es bad behind fault, l.pending = front ++ bad :: behind →
    front.map Expr.decode = es.map .ok → Expr.decode bad = .error fault →
      ∃ l', w.evaluateLink h = (false, { w with links := w.links.insert h l' }) ∧ l.Processed es l'
  finished : ∀ es, l.pending.map Expr.decode = es.map .ok →
    ∃ l', w.evaluateLink h = (true, { w with links := w.links.insert h l' }) ∧ l.Processed es l'

theorem Host.endsBatch {w : Host} {h : Handle} {l : Link} (live : w.links.get? h = some l)
    (unbroken : l.broken = false) : w.EndsBatch h l := by
  constructor
  case splits => exact Link.readable_spec l.pending
  case stopped =>
    intro front es bad behind fault hpending hfront hbad
    have hreadable : Link.readable l.pending = es := by
      rw [hpending, Link.readable_append hfront, Link.readable, hbad, List.append_nil]
    have hlength : es.length = front.length := by
      simpa using congrArg List.length hfront.symm
    have hshort : ¬ es.length = l.pending.length := by
      rw [hlength, hpending, List.length_append, List.length_cons]
      omega
    refine ⟨_, ?_, hreadable ▸ l.processed_evaluatePending⟩
    rw [evaluateLink_eq live unbroken, hreadable, decide_eq_false hshort]
  case finished =>
    intro es hall
    have hreadable : Link.readable l.pending = es := by
      have h := Link.readable_append hall []
      rwa [List.append_nil, Link.readable, List.append_nil] at h
    have hlength : es.length = l.pending.length := by
      simpa using congrArg List.length hall.symm
    refine ⟨_, ?_, hreadable ▸ l.processed_evaluatePending⟩
    rw [evaluateLink_eq live unbroken, hreadable, decide_eq_true hlength]

/-- **Packets behind one that cannot be read are dropped with it.** Take any link of a host, in whatever
    state the host has come to, with any packets waiting on it. If it is not broken, then processing it
    evaluates what waits up to the first packet that is no encoded expression, each once and in order;
    it fails if there is such a packet, and nothing waits on it afterwards. Over any run of requests,
    what waited on the link and what it has accepted is what it has processed, batch by batch, and what
    waits on it still; and what it has evaluated is what stands in these batches before the first packet
    that cannot be read. -/
theorem batches_end_at_unreadable {made : List (Handle × Use)} {w : Host} (past : History made w)
    {h : Handle} {l : Link} (live : w.links.get? h = some l) :
    (l.broken = false → w.EndsBatch h l) ∧
    ∀ requests, ∃ l', (w.run requests).links.get? h = some l' ∧
      l.Accounted (w.trafficOf h requests) l' :=
  ⟨endsBatch live, accounted_run past live⟩

/-- An assignment to a symbol, as a packet. -/
def setPacket (name : String) (value : Int64) : Bytes :=
  (Expr.evaluatePacket (Expr.set name (.integer value))).encode

/-- Two assignments wait on a link, with a packet between them that is no expression. -/
def garbageBetween : Host :=
  run {} [.newLink, .putPacket 1 (setPacket "x" 3), .putPacket 1 [255],
    .putPacket 1 (setPacket "y" 4)]

/-- Processing evaluates the first assignment and fails, and nothing waits any more. -/
theorem batches_end_at_unreadable_garbageBetween :
    ∃ l l', garbageBetween.links.get? 1 = some l ∧ garbageBetween.evaluateLink 1 =
        (false, { garbageBetween with links := garbageBetween.links.insert 1 l' }) ∧
      l.Processed [Expr.evaluatePacket (Expr.set "x" (.integer 3))] l' := by
  obtain ⟨made, past⟩ := History.start.run [.newLink, .putPacket 1 (setPacket "x" 3),
    .putPacket 1 [255], .putPacket 1 (setPacket "y" 4)]
  have live : garbageBetween.links.get? 1 =
      some { pending := [setPacket "x" 3, [255], setPacket "y" 4] } := rfl
  obtain ⟨l', hprocess, after⟩ := ((batches_end_at_unreadable past live).1 rfl).stopped
    [setPacket "x" 3] [Expr.evaluatePacket (Expr.set "x" (.integer 3))] [255] [setPacket "y" 4] _ rfl
    (by decide +kernel) rfl
  exact ⟨_, l', live, hprocess, after⟩

/-- A packet that is no expression waits on a link before an assignment. -/
def garbageFirst : Host := run {} [.newLink, .putPacket 1 [255], .putPacket 1 (setPacket "x" 3)]

/-- **A packet that can be read is lost.** Processing fails on the first packet. Processing again
    succeeds, but the assignment has been neither evaluated nor kept. -/
theorem readable_packet_dropped :
    Expr.decode (setPacket "x" 3) = .ok (Expr.evaluatePacket (Expr.set "x" (.integer 3))) ∧
    (garbageFirst.evaluateLink 1).1 = false ∧
    ((garbageFirst.evaluateLink 1).2.evaluateLink 1).1 = true ∧
    ((garbageFirst.evaluateLink 1).2.evaluateLink 1).2.links.get? 1 = some {} :=
  ⟨by decide +kernel, rfl, rfl, rfl⟩

end Marshal
