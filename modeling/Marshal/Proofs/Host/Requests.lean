import Marshal.Host.Access
import Marshal.Proofs.Host.History

/-!
# `Proofs.Host.Requests` — everything that can be asked of the host

A request is one call of the host's callback table, or one thing that the host's own side does to it.
Handles are whatever the caller has: null, stale, never given out, of the wrong sort, or freed
before. Whatever is asked and in whatever order, the tables of the host stay in step.

## Contents

* `Request`, `answer`, `run` — requests and runs of them;
* `answer_evolves` — every request but one is a sequence of changes;
* `run_sound` — what holds after every run from the empty host.
-/

namespace Marshal.Host

open Marshal.Number Marshal.Text

/-! ## Requests -/

/-- What can be asked of the host. -/
inductive Request
  | newArray (family : Family) (code rank : Int) (dims : Option (List Int))
  | hostArray (type : ElementType) (dims : List Int)
  | copyArray (h : Handle)
  | convertArray (source : Handle) (target method : Int) (tolerance : Real64)
  | freeArray (h : Handle)
  | disownArray (h : Handle)
  | shareArray (h : Handle)
  | writeArray (h : Handle) (start : Nat) (values : List Scalar)
  | newCollection
  | copyCollection (c : Handle)
  | freeCollection (c : Handle)
  | addNode (c : Handle) (name : Option Bytes) (payload : Payload)
  | newLink
  | putPacket (h : Handle) (packet : Bytes)
  | processLink (h : Handle)
  | takeProcessed (h : Handle)
  | severLink (h : Handle)
  | selectLink (h : Handle)
  | requestAbort (on : Bool)
  | deny (start : String)
  | allowAll

/-- The host after a request. -/
def answer (w : Host) : Request → Host
  | .newArray family code rank dims => (w.newArrayByCode family code rank dims).2
  | .hostArray type dims => (w.newArray type dims).2
  | .copyArray h => (w.copyArray h).2
  | .convertArray source target method tolerance =>
    (w.convertArrayByCode source target method tolerance).2
  | .freeArray h => w.freeArray h
  | .disownArray h => w.disownArray h
  | .shareArray h => w.shareArray h
  | .writeArray h start values => w.overwriteArray h start values
  | .newCollection => w.newCollection.2
  | .copyCollection c => (w.copyCollection c).2
  | .freeCollection c => w.freeCollection c
  | .addNode c name payload => w.acceptNode c name payload
  | .newLink => w.newLink.2
  | .putPacket h packet => (w.enqueuePacket h packet).2
  | .processLink h => (w.evaluateLink h).2
  | .takeProcessed h => (w.takeProcessed h).2
  | .severLink h => w.severLink h
  | .selectLink h => w.selectLink h
  | .requestAbort on => w.requestAbort on
  | .deny start => w.deny start
  | .allowAll => w.allowAll

/-- The host after requests, one after the other. -/
def run (w : Host) (requests : List Request) : Host := requests.foldl answer w

/-! ## Runs are histories -/

/-- Every request but giving back a share is a sequence of changes. -/
theorem answer_evolves (w : Host) (r : Request) :
    (∃ h, r = .disownArray h) ∨ Evolves w (w.answer r) := by
  cases r with
  | newArray => exact .inr (.newArrayByCode ..)
  | hostArray => exact .inr (.addArray? ..)
  | copyArray => exact .inr (.addArray? ..)
  | convertArray => exact .inr (.convertArrayByCode ..)
  | freeArray => exact .inr (.freeArray ..)
  | disownArray h => exact .inl ⟨h, rfl⟩
  | shareArray => exact .inr (.single (.modifyArray ..))
  | writeArray => exact .inr (.single (.modifyArray ..))
  | newCollection => exact .inr (.single (.collection w))
  | copyCollection => exact .inr (.copyCollection ..)
  | freeCollection => exact .inr (.freeAll ..)
  | addNode => exact .inr (.acceptNode ..)
  | newLink => exact .inr (.single (.link w))
  | putPacket => exact .inr (.enqueuePacket ..)
  | processLink => exact .inr (.evaluateLink ..)
  | takeProcessed => exact .inr (.single (.modifyLink ..))
  | severLink => exact .inr (.single (.modifyLink ..))
  | selectLink => exact .inr (.single (.settings ..))
  | requestAbort => exact .inr (.single (.settings ..))
  | deny => exact .inr (.single (.settings ..))
  | allowAll => exact .inr (.single (.settings ..))

/-- A history goes on with a request. -/
theorem History.answer {made : List (Handle × Use)} {w : Host} (past : History made w)
    (r : Request) : ∃ more, History (made ++ more) (w.answer r) := by
  rcases answer_evolves w r with ⟨h, rfl⟩ | ⟨more, hmore⟩
  · refine ⟨[], ?_⟩
    rw [List.append_nil]
    exact past.disown h
  · exact ⟨more, past.changes hmore⟩

/-- A history goes on with a run. -/
theorem History.run {made : List (Handle × Use)} {w : Host} (past : History made w)
    (requests : List Request) : ∃ more, History (made ++ more) (w.run requests) := by
  induction requests generalizing made w with
  | nil => exact ⟨[], by simpa [Host.run] using past⟩
  | cons r rest ih =>
    obtain ⟨more, hmore⟩ := past.answer r
    obtain ⟨others, hothers⟩ := ih hmore
    exact ⟨more ++ others, by simpa [Host.run, List.append_assoc] using hothers⟩

/-! ## What holds after every run -/

/-- **The tables stay in step.** After any requests in any order, there is a record of the numbers
    given out, and by every such record: no number has been given out twice; what a number names it
    was given to, it is neither null nor still to be given out, and it is one thing only; the places
    are exactly those of the nodes of live collections; what was given to an array or a collection is
    live with no free counted or gone with one; and no free is counted for a node or a link. -/
theorem run_sound (requests : List Request) :
    (∃ made, History made (run {} requests)) ∧
    ∀ made, History made (run {} requests) →
      (made.map Prod.fst).Nodup ∧
      (∀ u h, (run {} requests).names u h = true →
        (h, u) ∈ made ∧ 0 < h ∧ h < (run {} requests).nextId) ∧
      (∀ u u' h, (run {} requests).names u h = true → (run {} requests).names u' h = true →
        u = u') ∧
      (∀ id c p, (run {} requests).places.get? id = some (c, p) ↔
        ∃ nodes n, (run {} requests).collections.get? c = some nodes ∧ nodes[p]? = some n ∧
          n.id = id) ∧
      (∀ h u, (h, u) ∈ made → u = .array ∨ u = .collection →
        ((run {} requests).names u h = true ∧ (run {} requests).freesOf h = 0) ∨
        ((run {} requests).names u h = false ∧ (run {} requests).freesOf h = 1)) ∧
      (∀ h u, (h, u) ∈ made → u = .node ∨ u = .link → (run {} requests).freesOf h = 0) := by
  obtain ⟨made, past⟩ := History.start.run requests
  refine ⟨⟨_, past⟩, fun made past => ?_⟩
  have s := past.sound
  exact ⟨s.distinct, fun u h hn => ⟨s.named u h hn, s.lt_next hn⟩, fun u u' h => s.names_unique,
    s.place_iff, fun h u => s.frees_owned, fun h u => s.frees_unowned⟩

end Marshal.Host
