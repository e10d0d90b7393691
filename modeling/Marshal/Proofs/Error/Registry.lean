import Mathlib.Data.List.Nodup
import Marshal.Error.Registry

/-!
# `Proofs.Error.Registry` — the registry is an ordered table that only grows

Three things describe the same table: the kinds in the order of registration, the index of their
names, and the number that the next kind gets. They agree at the beginning and after every
registration, whether it adds a kind, repeats one, is refused, or stops in the middle of a batch.

Beside the registry stands a plain list of all the entries that registrations have got through to it,
repetitions included. The table holds the first entry of each name in that list.

## Contents

* `Registration`, `run` — registrations and runs of them;
* `firsts`, `Fits`, `reached`, `applied` — the entries that a run gets through to the table;
* `table`, `InStep` — the entries of a table, and that its numbers and its index agree with them;
* `Tracks` — the table holds the first entries of a list;
* `Grown`, `LooksUp`, `Registers` — what look-ups and registrations do in a table that has grown;
* `run_refines` — all of it after every run from the table of the built-in kinds.
-/

namespace Marshal

/-! ## First entries -/

/-- The entries whose name comes for the first time. -/
def firsts : List (String × String) → List (String × String)
  | [] => []
  | e :: rest => e :: (firsts rest).filter (·.1 != e.1)

theorem mem_of_mem_firsts {xs : List (String × String)} {e : String × String}
    (h : e ∈ firsts xs) : e ∈ xs := by
  induction xs with
  | nil => exact h
  | cons x xs ih =>
    rcases List.mem_cons.mp h with rfl | h
    · exact List.mem_cons_self
    · exact List.mem_cons_of_mem _ (ih (List.mem_filter.mp h).1)

/-- Of what comes later only the new names are kept. -/
theorem firsts_append (xs ys : List (String × String)) :
    firsts (xs ++ ys) = firsts xs ++ (firsts ys).filter fun e => e.1 ∉ xs.map Prod.fst := by
  induction xs with
  | nil => simp [firsts]
  | cons x xs ih =>
    have hnames : ∀ e : String × String,
        (e.1 != x.1 && decide (e.1 ∉ xs.map Prod.fst)) = decide (e.1 ∉ (x :: xs).map Prod.fst) := by
      intro e
      rw [Bool.eq_iff_iff, Bool.and_eq_true, bne_iff_ne, decide_eq_true_iff, decide_eq_true_iff,
        List.map_cons, List.mem_cons, not_or]
    rw [List.cons_append, firsts, ih, List.filter_append, List.filter_filter, firsts,
      List.cons_append]
    simp only [hnames]

theorem firsts_of_nodup {xs : List (String × String)} (distinct : (xs.map Prod.fst).Nodup) :
    firsts xs = xs := by
  induction xs with
  | nil => rfl
  | cons x xs ih =>
    rw [List.map_cons, List.nodup_cons] at distinct
    have hkept : xs.filter (·.1 != x.1) = xs := by
      refine List.filter_eq_self.mpr fun e he => ?_
      have hne : e.1 ≠ x.1 := fun h => distinct.1 (h ▸ List.mem_map_of_mem he)
      simpa using hne
    rw [firsts, ih distinct.2, hkept]

/-- One more entry stays if its name is new. -/
theorem firsts_snoc_new {known : List (String × String)} {e : String × String}
    (new : e.1 ∉ known.map Prod.fst) : firsts (known ++ [e]) = firsts known ++ [e] := by
  have hkept : (firsts [e]).filter (fun e => e.1 ∉ known.map Prod.fst) = [e] := by
    rw [firsts, firsts, List.filter_nil, List.filter_cons_of_pos (by simpa using new),
      List.filter_nil]
  rw [firsts_append, hkept]

theorem firsts_snoc_old {known : List (String × String)} {e : String × String}
    (old : e.1 ∈ known.map Prod.fst) : firsts (known ++ [e]) = firsts known := by
  have hdropped : (firsts [e]).filter (fun e => e.1 ∉ known.map Prod.fst) = [] := by
    rw [firsts, firsts, List.filter_nil, List.filter_cons_of_neg (by simpa using old),
      List.filter_nil]
  rw [firsts_append, hdropped, List.append_nil]

/-! ## Entries that reach the table -/

/-- Whether an entry agrees with the known ones: those with its name have its message too. -/
def Fits (known : List (String × String)) (e : String × String) : Prop :=
  ∀ k ∈ known, k.1 = e.1 → k.2 = e.2

instance (known : List (String × String)) (e : String × String) : Decidable (Fits known e) :=
  inferInstanceAs (Decidable (∀ k ∈ known, k.1 = e.1 → k.2 = e.2))

/-- The entries before the first that disagrees with a known one or with one before it. -/
def reached (known : List (String × String)) : List (String × String) → List (String × String)
  | [] => []
  | e :: rest => if Fits known e then e :: reached (known ++ [e]) rest else []

/-- A call that can add kinds: a single one, or a batch. -/
inductive Registration
  | single (name message : String)
  | batch (entries : List (String × String))
  deriving DecidableEq, Repr

/-- The entries of a call. -/
def Registration.entries : Registration → List (String × String)
  | single name message => [(name, message)]
  | batch entries => entries

/-- The entries that get through when calls follow each other. -/
def applied (known : List (String × String)) : List Registration → List (String × String)
  | [] => []
  | call :: rest =>
    reached known call.entries ++ applied (known ++ reached known call.entries) rest

/-- The entry of a built-in kind. -/
def Builtin.entry (b : Builtin) : String × String := (b.name, b.message)

def Builtin.entries : List (String × String) := all.map entry

/-- No two built-in kinds share a name. -/
theorem Builtin.nodup_entries : (Builtin.entries.map Prod.fst).Nodup := by decide +kernel

namespace Registry

/-! ## Runs -/

/-- The table after a call. -/
def carryOut (r : Registry) : Registration → Registry
  | .single name message =>
    match r.register name message with
    | .ok s => s
    | .error _ => r
  | .batch entries => (r.registerAll entries).2

/-- The table after several calls. -/
def run (r : Registry) (calls : List Registration) : Registry := calls.foldl carryOut r

theorem run_append (r : Registry) (calls more : List Registration) :
    r.run (calls ++ more) = (r.run calls).run more := List.foldl_append

/-- A single call leaves the table that a batch of its one entry leaves. -/
theorem carryOut_eq_registerAll (r : Registry) (call : Registration) :
    r.carryOut call = (r.registerAll call.entries).2 := by
  cases call with
  | single name message =>
    rw [carryOut, Registration.entries, registerAll]
    cases r.register name message with
    | ok s => rfl
    | error e => rfl
  | batch entries => rfl

/-! ## Growth -/

/-- **A registration leaves the kinds that are there**, with their numbers, at their places. -/
theorem kinds_prefix_of_register {r s : Registry} {name message : String}
    (h : r.register name message = .ok s) : r.kinds <+: s.kinds := by
  rcases of_register h with ⟨-, rfl⟩ | ⟨rfl, -⟩
  · exact List.prefix_append _ _
  · exact List.prefix_refl _

theorem kinds_prefix_registerAll (r : Registry) (entries : List (String × String)) :
    r.kinds <+: (r.registerAll entries).2.kinds := by
  induction entries generalizing r with
  | nil => exact List.prefix_refl _
  | cons e rest ih =>
    rw [registerAll]
    cases hone : r.register e.1 e.2 with
    | ok s => exact (kinds_prefix_of_register hone).trans (ih s)
    | error err => exact List.prefix_refl _

/-- **The kinds before a run are the first kinds after it.** -/
theorem kinds_prefix_run (r : Registry) (calls : List Registration) :
    r.kinds <+: (r.run calls).kinds := by
  induction calls generalizing r with
  | nil => exact List.prefix_refl _
  | cons call rest ih =>
    have hcall : r.kinds <+: (r.carryOut call).kinds := by
      rw [carryOut_eq_registerAll]
      exact r.kinds_prefix_registerAll call.entries
    exact hcall.trans (ih (r.carryOut call))

/-! ## The entries of the table -/

/-- The names of the kinds with their messages. -/
def table (r : Registry) : List (String × String) :=
  r.kinds.map fun kind => (kind.name, kind.message)

theorem mem_table_of_mem {r : Registry} {kind : ErrorKind} (h : kind ∈ r.kinds) :
    (kind.name, kind.message) ∈ r.table := List.mem_map_of_mem h

theorem mem_names_iff {r : Registry} {name : String} :
    name ∈ r.table.map Prod.fst ↔ ∃ kind ∈ r.kinds, kind.name = name := by
  rw [table, List.map_map, List.mem_map]
  rfl

theorem table_insert (r : Registry) (name message : String) :
    (r.insert name message).table = r.table ++ [(name, message)] := List.map_append

/-! ## The index and the numbers -/

/-- **The kinds, their numbers and the index of names agree.** -/
structure InStep (r : Registry) : Prop where
  number : ∀ (place : Nat) (kind : ErrorKind),
    r.kinds[place]? = some kind → kind.id = baseId - place
  next : r.nextId = baseId - r.size
  place_iff : ∀ (name : String) (place : Nat), r.places.lookup name = some place ↔
    ∃ kind, r.kinds[place]? = some kind ∧ kind.name = name

namespace InStep

variable {r : Registry}

/-- The index finds the kind with a name, and no other. -/
theorem kindNamed?_eq_some_iff (h : r.InStep) {name : String} {kind : ErrorKind} :
    r.kindNamed? name = some kind ↔ kind ∈ r.kinds ∧ kind.name = name := by
  rw [kindNamed?, Option.bind_eq_bind, Option.bind_eq_some_iff]
  constructor
  · rintro ⟨place, hplace, hkind⟩
    obtain ⟨kind', hkind', hname⟩ := (h.place_iff name place).mp hplace
    obtain rfl := Option.some.inj (hkind.symm.trans hkind')
    exact ⟨List.mem_of_getElem? hkind, hname⟩
  · rintro ⟨hmem, hname⟩
    obtain ⟨place, hkind⟩ := List.mem_iff_getElem?.mp hmem
    exact ⟨place, (h.place_iff name place).mpr ⟨kind, hkind, hname⟩, hkind⟩

theorem kindNamed?_eq_none_iff (h : r.InStep) {name : String} :
    r.kindNamed? name = none ↔ name ∉ r.table.map Prod.fst := by
  rw [mem_names_iff]
  constructor
  · rintro hnone ⟨kind, hkind, hname⟩
    rw [h.kindNamed?_eq_some_iff.mpr ⟨hkind, hname⟩] at hnone
    cases hnone
  · intro hnew
    cases hfound : r.kindNamed? name with
    | none => rfl
    | some kind => exact absurd ⟨kind, h.kindNamed?_eq_some_iff.mp hfound⟩ hnew

/-- No two kinds share a name. -/
theorem name_unique (h : r.InStep) {kind other : ErrorKind} (hkind : kind ∈ r.kinds)
    (hother : other ∈ r.kinds) (hname : other.name = kind.name) : other = kind := by
  have found := h.kindNamed?_eq_some_iff.mpr ⟨hkind, rfl⟩
  have found' := h.kindNamed?_eq_some_iff.mpr ⟨hother, hname⟩
  exact Option.some.inj (found'.symm.trans found)

/-- The number of a kind is as far below the first number as the kind is from the first kind. -/
theorem mem_iff (h : r.InStep) {kind : ErrorKind} :
    kind ∈ r.kinds ↔
      ∃ place < r.size, r.kinds[place]? = some kind ∧ kind.id = baseId - place := by
  constructor
  · intro hmem
    obtain ⟨place, hkind⟩ := List.mem_iff_getElem?.mp hmem
    exact ⟨place, (List.getElem?_eq_some_iff.mp hkind).1, hkind, h.number place kind hkind⟩
  · rintro ⟨place, -, hkind, -⟩
    exact List.mem_of_getElem? hkind

/-- The distance from the first number finds the kind with a number, and no other. Below two to the
thirty-first kinds no distance is too large. -/
theorem kindWithId?_eq_some_iff (h : r.InStep) (few : r.size < 2147483648) {id : Int}
    {kind : ErrorKind} : r.kindWithId? id = some kind ↔ kind ∈ r.kinds ∧ kind.id = id := by
  have hmin : Int32.minValue.toInt = -2147483648 := rfl
  have hmax : Int32.maxValue.toInt = 2147483647 := rfl
  unfold kindWithId? fitsInt32
  dsimp only
  rw [hmin, hmax]
  constructor
  · intro hfound
    split at hfound
    · next hin =>
      have hkind := h.number _ kind hfound
      simp only [Bool.and_eq_true, decide_eq_true_eq] at hin
      exact ⟨List.mem_of_getElem? hfound, by omega⟩
    · cases hfound
  · rintro ⟨hmem, rfl⟩
    obtain ⟨place, hlt, hkind, hid⟩ := h.mem_iff.mp hmem
    have hplace : baseId - kind.id = place := by omega
    rw [hplace, if_pos (by simp; omega), Int.toNat_natCast]
    exact hkind

/-! ### Preservation -/

theorem empty : Registry.empty.InStep where
  number place kind h := by cases h
  next := rfl
  place_iff name place := by simp [Registry.empty]

/-- A kind with a new name goes to the end of the table and into the index. -/
theorem insert (h : r.InStep) {name : String} (new : name ∉ r.table.map Prod.fst)
    (message : String) : (r.insert name message).InStep := by
  -- what is at a place after the insertion
  have hold : ∀ place < r.size, (r.insert name message).kinds[place]? = r.kinds[place]? :=
    fun place hlt => List.getElem?_append_left hlt
  have hlast : (r.insert name message).kinds[r.size]? = some ⟨r.nextId, name, message⟩ :=
    List.getElem?_concat_length
  have hsize : (r.insert name message).size = r.size + 1 := List.length_append
  have hcases : ∀ (place : Nat) (kind : ErrorKind),
      (r.insert name message).kinds[place]? = some kind →
        (place < r.size ∧ r.kinds[place]? = some kind) ∨
          (place = r.size ∧ kind = ⟨r.nextId, name, message⟩) := by
    intro place kind hkind
    have hlt : place < (r.insert name message).size := (List.getElem?_eq_some_iff.mp hkind).1
    by_cases hplace : place < r.size
    · exact .inl ⟨hplace, (hold place hplace).symm.trans hkind⟩
    · obtain rfl : place = r.size := by omega
      exact .inr ⟨rfl, Option.some.inj (hkind.symm.trans hlast)⟩
  constructor
  case number =>
    intro place kind hkind
    rcases hcases place kind hkind with ⟨-, hkind⟩ | ⟨rfl, rfl⟩
    · exact h.number place kind hkind
    · exact h.next
  case next =>
    show r.nextId - 1 = baseId - (r.insert name message).size
    rw [h.next, hsize]
    omega
  case place_iff =>
    intro wanted place
    show ((name, r.size) :: r.places).lookup wanted = some place ↔ _
    rw [List.lookup_cons]
    by_cases hname : wanted = name
    · -- the new name leads to the last place, and no other kind has it
      subst hname
      rw [beq_self_eq_true]
      show some r.size = some place ↔ _
      constructor
      · rintro ⟨⟩
        exact ⟨_, hlast, rfl⟩
      · rintro ⟨kind, hkind, hwanted⟩
        rcases hcases place kind hkind with ⟨-, hkind⟩ | ⟨rfl, -⟩
        · exact absurd (mem_names_iff.mpr ⟨kind, List.mem_of_getElem? hkind, hwanted⟩) new
        · rfl
    · -- every other name leads where it led
      rw [beq_false_of_ne hname]
      show r.places.lookup wanted = some place ↔ _
      rw [h.place_iff]
      constructor
      · rintro ⟨kind, hkind, hwanted⟩
        have hlt : place < r.size := (List.getElem?_eq_some_iff.mp hkind).1
        exact ⟨kind, (hold place hlt).trans hkind, hwanted⟩
      · rintro ⟨kind, hkind, hwanted⟩
        rcases hcases place kind hkind with ⟨-, hkind⟩ | ⟨-, rfl⟩
        · exact ⟨kind, hkind, hwanted⟩
        · exact absurd hwanted.symm hname

end InStep

/-! ## One registration -/

/-- A new name adds a kind. -/
theorem InStep.register_new {r : Registry} (h : r.InStep) {name : String}
    (new : name ∉ r.table.map Prod.fst) (message : String) :
    r.register name message = .ok (r.insert name message) := by
  rw [register, h.kindNamed?_eq_none_iff.mpr new]

/-- A name in the table adds nothing, and has to come with the message of its kind. -/
theorem InStep.register_old {r : Registry} (h : r.InStep) {kind : ErrorKind}
    (old : kind ∈ r.kinds) (message : String) : r.register kind.name message =
      if kind.message = message then .ok r
      else .error (r.errorOf (.nameTaken kind.name kind.id)) := by
  rw [register, h.kindNamed?_eq_some_iff.mpr ⟨old, rfl⟩]

/-- The table has one entry with the name of a kind. -/
theorem InStep.fits_table_iff {r : Registry} (h : r.InStep) {kind : ErrorKind}
    (old : kind ∈ r.kinds) {message : String} :
    Fits r.table (kind.name, message) ↔ kind.message = message := by
  constructor
  · intro hfits
    exact hfits _ (mem_table_of_mem old) rfl
  · rintro rfl e he hname
    obtain ⟨other, hother, rfl⟩ := List.mem_map.mp he
    have hsame : other = kind := h.name_unique old hother hname
    rw [hsame]

/-- **A registration succeeds if and only if its entry agrees with the table.** -/
theorem InStep.register_ok_iff {r : Registry} (h : r.InStep) {name message : String} :
    (∃ s, r.register name message = .ok s) ↔ Fits r.table (name, message) := by
  by_cases hold : name ∈ r.table.map Prod.fst
  · obtain ⟨kind, hkind, rfl⟩ := mem_names_iff.mp hold
    rw [h.register_old hkind, h.fits_table_iff hkind]
    constructor
    · rintro ⟨s, hs⟩
      by_contra hother
      rw [if_neg hother] at hs
      cases hs
    · intro hmessage
      exact ⟨r, if_pos hmessage⟩
  · have hfits : Fits r.table (name, message) := by
      rintro e he rfl
      exact absurd (List.mem_map_of_mem he) hold
    exact iff_of_true ⟨_, h.register_new hold message⟩ hfits

/-! ## Following a list of entries -/

/-- **The table holds the first entries of a list, and nothing in the list contradicts it.** -/
structure Tracks (r : Registry) (known : List (String × String)) : Prop where
  inStep : r.InStep
  table_eq : r.table = firsts known
  mem_table : ∀ e ∈ known, e ∈ r.table

namespace Tracks

variable {r : Registry} {known : List (String × String)}

theorem mem_table_iff (h : r.Tracks known) {e : String × String} : e ∈ r.table ↔ e ∈ known := by
  constructor
  · intro hmem
    rw [h.table_eq] at hmem
    exact mem_of_mem_firsts hmem
  · exact h.mem_table e

theorem mem_names_iff (h : r.Tracks known) {name : String} :
    name ∈ r.table.map Prod.fst ↔ name ∈ known.map Prod.fst := by
  rw [List.mem_map, List.mem_map]
  exact exists_congr fun e => and_congr_left' h.mem_table_iff

theorem fits_iff (h : r.Tracks known) {e : String × String} : Fits r.table e ↔ Fits known e :=
  forall_congr' fun _ => imp_congr_left h.mem_table_iff

theorem empty : Registry.empty.Tracks [] where
  inStep := InStep.empty
  table_eq := rfl
  mem_table e he := by cases he

/-! ### Preservation -/

/-- A kind under a new name is one more first entry. -/
theorem insert (h : r.Tracks known) {e : String × String} (new : e.1 ∉ known.map Prod.fst) :
    (r.insert e.1 e.2).Tracks (known ++ [e]) := by
  constructor
  case inStep => exact h.inStep.insert (fun hold => new (h.mem_names_iff.mp hold)) e.2
  case table_eq => rw [table_insert, h.table_eq, firsts_snoc_new new]
  case mem_table =>
    intro k hk
    rw [table_insert]
    rcases List.mem_append.mp hk with hk | hk
    · exact List.mem_append_left _ (h.mem_table k hk)
    · exact List.mem_append_right _ hk

/-- **An entry that fits is registered**, and the table tracks it too. -/
theorem register (h : r.Tracks known) {e : String × String} (fits : Fits known e) :
    ∃ s, r.register e.1 e.2 = .ok s ∧ s.Tracks (known ++ [e]) := by
  by_cases hold : e.1 ∈ r.table.map Prod.fst
  · -- a repetition: nothing happens
    obtain ⟨kind, hkind, hname⟩ := Registry.mem_names_iff.mp hold
    obtain ⟨name, message⟩ := e
    subst hname
    have hmessage : kind.message = message :=
      (h.inStep.fits_table_iff hkind).mp (h.fits_iff.mpr fits)
    subst hmessage
    refine ⟨r, by rw [h.inStep.register_old hkind, if_pos rfl], ?_⟩
    constructor
    case inStep => exact h.inStep
    case table_eq => rw [h.table_eq, firsts_snoc_old (h.mem_names_iff.mp hold)]
    case mem_table =>
      intro k hk
      rcases List.mem_append.mp hk with hk | hk
      · exact h.mem_table k hk
      · rw [List.mem_singleton.mp hk]
        exact mem_table_of_mem hkind
  · -- a new name: one more kind
    have hnew : e.1 ∉ known.map Prod.fst := fun hk => hold (h.mem_names_iff.mpr hk)
    exact ⟨r.insert e.1 e.2, h.inStep.register_new hold e.2, h.insert hnew⟩

/-- An entry that does not fit is refused. -/
theorem register_refused (h : r.Tracks known) {e : String × String} (unfit : ¬ Fits known e) :
    ∃ error, r.register e.1 e.2 = .error error := by
  cases hone : r.register e.1 e.2 with
  | ok s => exact absurd (h.fits_iff.mp (h.inStep.register_ok_iff.mp ⟨s, hone⟩)) unfit
  | error error => exact ⟨error, rfl⟩

/-! ### Runs -/

/-- **A batch gets through to its first entry that does not fit.** -/
theorem registerAll (h : r.Tracks known) (entries : List (String × String)) :
    (r.registerAll entries).2.Tracks (known ++ reached known entries) := by
  induction entries generalizing r known with
  | nil =>
    rw [reached, List.append_nil]
    exact h
  | cons e rest ih =>
    rw [reached, Registry.registerAll]
    by_cases hfits : Fits known e
    · obtain ⟨s, hs, hnext⟩ := h.register hfits
      rw [if_pos hfits, hs, List.append_cons]
      exact ih hnext
    · obtain ⟨error, herror⟩ := h.register_refused hfits
      rw [if_neg hfits, herror, List.append_nil]
      exact h

theorem run (h : r.Tracks known) (calls : List Registration) :
    (r.run calls).Tracks (known ++ applied known calls) := by
  induction calls generalizing r known with
  | nil =>
    rw [applied, List.append_nil]
    exact h
  | cons call rest ih =>
    have hcall : (r.carryOut call).Tracks (known ++ reached known call.entries) := by
      rw [carryOut_eq_registerAll]
      exact h.registerAll call.entries
    rw [applied, ← List.append_assoc]
    exact ih hcall

/-- Kinds with different new names can be added without looking. -/
theorem insertAll (h : r.Tracks known) (bs : List Builtin)
    (distinct : ((known ++ bs.map Builtin.entry).map Prod.fst).Nodup) :
    (bs.foldl (fun r b => r.insert b.name b.message) r).Tracks (known ++ bs.map Builtin.entry) := by
  induction bs generalizing r known with
  | nil =>
    rw [List.map_nil, List.append_nil]
    exact h
  | cons b rest ih =>
    rw [List.map_cons, List.append_cons] at distinct ⊢
    have hnew : b.entry.1 ∉ known.map Prod.fst := by
      rw [List.append_assoc, List.map_append, List.nodup_append] at distinct
      intro hold
      exact distinct.2.2 _ hold _ List.mem_cons_self rfl
    exact ih (h.insert hnew) distinct

theorem seeded : Registry.seeded.Tracks Builtin.entries :=
  Tracks.empty.insertAll Builtin.all Builtin.nodup_entries

end Tracks

/-! ## The built-in kinds -/

/-- A table whose parts agree, and that has grown from the table of the built-in kinds. -/
structure Grown (r : Registry) : Prop where
  inStep : r.InStep
  kinds_prefix : Registry.seeded.kinds <+: r.kinds

namespace Grown

theorem run (calls : List Registration) : (Registry.seeded.run calls).Grown :=
  ⟨(Tracks.seeded.run calls).inStep, Registry.seeded.kinds_prefix_run calls⟩

variable {r : Registry}

/-- **Every built-in kind is in the table**, so the number of a failed function is never put in its
place. -/
theorem kindNamed?_builtin (h : r.Grown) (b : Builtin) :
    r.kindNamed? b.name = some (r.builtinKind b) := by
  have hentry : (b.name, b.message) ∈ Registry.seeded.table :=
    Tracks.seeded.mem_table _ (List.mem_map_of_mem b.mem_all)
  obtain ⟨kind, hkind, hname⟩ := List.mem_map.mp hentry
  have hfound : r.kindNamed? b.name = some kind :=
    h.inStep.kindNamed?_eq_some_iff.mpr ⟨h.kinds_prefix.subset hkind, congrArg Prod.fst hname⟩
  rw [builtinKind, hfound]
  rfl

/-- The error of a cause has the name of its kind. -/
theorem name_errorOf (h : r.Grown) (fault : Fault) :
    (r.errorOf fault).kind.name = fault.builtin.name :=
  (h.inStep.kindNamed?_eq_some_iff.mp (h.kindNamed?_builtin fault.builtin)).2

end Grown

/-! ## Look-ups -/

theorem kindOfId_eq_ok_iff {r : Registry} {id : Int} {kind : ErrorKind} :
    r.kindOfId id = .ok kind ↔ r.kindWithId? id = some kind := by
  rw [kindOfId]
  cases r.kindWithId? id <;> simp

theorem kindOfName_eq_ok_iff {r : Registry} {name : String} {kind : ErrorKind} :
    r.kindOfName name = .ok kind ↔ r.kindNamed? name = some kind := by
  rw [kindOfName]
  cases r.kindNamed? name <;> simp

/-- **What look-ups find in a table.** The numbers are those that the kinds have, without a gap, and
to look up by name and by number are inverse to each other. -/
structure LooksUp (r : Registry) : Prop where
  of_id : ∀ id kind, r.kindOfId id = .ok kind → kind.id = id ∧ r.kindOfName kind.name = .ok kind
  of_name : ∀ name kind,
    r.kindOfName name = .ok kind → kind.name = name ∧ r.kindOfId kind.id = .ok kind
  id_ok_iff : ∀ id : Int, (∃ kind, r.kindOfId id = .ok kind) ↔ 7 - (r.size : Int) < id ∧ id ≤ 7
  name_ok_iff : ∀ name, (∃ kind, r.kindOfName name = .ok kind) ↔ name ∈ r.table.map Prod.fst
  unknown_id : ∀ id : Int, ¬ (7 - (r.size : Int) < id ∧ id ≤ 7) →
    ∃ error, r.kindOfId id = .error error ∧ r.errorOfId id = error ∧
      error.kind.name = "ErrorManagerThrowIdError" ∧
      error.detail = "no error with id " ++ toString id ∧ error.params = none
  unknown_name : ∀ name, name ∉ r.table.map Prod.fst →
    ∃ error, r.kindOfName name = .error error ∧ r.errorOfName name = error ∧
      error.kind.name = "ErrorManagerThrowNameError" ∧
      error.detail = "no error named " ++ name ∧ error.params = none
  builtin : ∀ b : Builtin, r.kindNamed? b.name = some (r.builtinKind b)

/-- The numbers in use have no gap. -/
theorem InStep.exists_id_iff {r : Registry} (h : r.InStep) {id : Int} :
    (∃ kind ∈ r.kinds, kind.id = id) ↔ 7 - (r.size : Int) < id ∧ id ≤ 7 := by
  constructor
  · rintro ⟨kind, hkind, rfl⟩
    obtain ⟨place, hlt, -, hid⟩ := h.mem_iff.mp hkind
    have hbase : baseId = 7 := rfl
    omega
  · rintro ⟨hlow, hhigh⟩
    have hlt : (7 - id).toNat < r.kinds.length := by
      have hsize : r.size = r.kinds.length := rfl
      omega
    have hkind : r.kinds[(7 - id).toNat]? = some r.kinds[(7 - id).toNat] :=
      List.getElem?_eq_getElem hlt
    refine ⟨_, List.mem_of_getElem? hkind, ?_⟩
    rw [h.number _ _ hkind, baseId]
    omega

/-- **Look-ups in a table that has grown.** -/
theorem Grown.looksUp {r : Registry} (grown : r.Grown) (few : r.size < 2147483648) :
    r.LooksUp := by
  have h := grown.inStep
  have hid : ∀ {id kind}, r.kindOfId id = .ok kind ↔ kind ∈ r.kinds ∧ kind.id = id :=
    kindOfId_eq_ok_iff.trans (h.kindWithId?_eq_some_iff few)
  have hname : ∀ {name kind}, r.kindOfName name = .ok kind ↔ kind ∈ r.kinds ∧ kind.name = name :=
    kindOfName_eq_ok_iff.trans h.kindNamed?_eq_some_iff
  have hknown : ∀ id : Int, (∃ kind, r.kindOfId id = .ok kind) ↔
      7 - (r.size : Int) < id ∧ id ≤ 7 := by
    intro id
    rw [← h.exists_id_iff]
    exact exists_congr fun kind => hid
  have hnamed : ∀ name, (∃ kind, r.kindOfName name = .ok kind) ↔
      name ∈ r.table.map Prod.fst := by
    intro name
    rw [mem_names_iff]
    exact exists_congr fun kind => hname
  constructor
  case of_id =>
    intro id kind hfound
    obtain ⟨hkind, rfl⟩ := hid.mp hfound
    exact ⟨rfl, hname.mpr ⟨hkind, rfl⟩⟩
  case of_name =>
    intro name kind hfound
    obtain ⟨hkind, rfl⟩ := hname.mp hfound
    exact ⟨rfl, hid.mpr ⟨hkind, rfl⟩⟩
  case id_ok_iff => exact hknown
  case name_ok_iff => exact hnamed
  case unknown_id =>
    intro id hunknown
    have herror : r.kindOfId id = .error (r.errorOf (.unknownId id)) := by
      cases hfound : r.kindWithId? id with
      | none => rw [kindOfId, hfound]
      | some kind => exact absurd ((hknown id).mp ⟨kind, kindOfId_eq_ok_iff.mpr hfound⟩) hunknown
    exact ⟨_, herror, by rw [errorOfId, herror, raisedBy], grown.name_errorOf _, rfl, rfl⟩
  case unknown_name =>
    intro name hunknown
    have herror : r.kindOfName name = .error (r.errorOf (.unknownName name)) := by
      rw [kindOfName, h.kindNamed?_eq_none_iff.mpr hunknown]
    exact ⟨_, herror, by rw [errorOfName, herror, raisedBy], grown.name_errorOf _, rfl, rfl⟩
  case builtin => exact grown.kindNamed?_builtin

/-! ## Registrations -/

/-- **What registrations do to a table.** -/
structure Registers (r : Registry) : Prop where
  ok_iff : ∀ name message, (∃ s, r.register name message = .ok s) ↔
    Fits r.table (name, message)
  new : ∀ name message, name ∉ r.table.map Prod.fst →
    ∃ s, r.register name message = .ok s ∧
      s.kinds = r.kinds ++ [⟨7 - r.size, name, message⟩]
  repeated : ∀ name message, (name, message) ∈ r.table → r.register name message = .ok r
  refused : ∀ kind ∈ r.kinds, ∀ message, kind.message ≠ message →
    ∃ error, r.register kind.name message = .error error ∧
      error.kind.name = "ErrorManagerCreateNameError" ∧
      error.detail = kind.name ++ " is already registered with id " ++ toString kind.id ∧
      error.params = none ∧
      r.carryOut (.single kind.name message) = r
  batch : ∀ entries, ∃ done rest s, entries = done ++ rest ∧
    done.foldlM (fun r e => r.register e.1 e.2) r = .ok s ∧
    ((rest = [] ∧ r.registerAll entries = (none, s)) ∨
      ∃ name message later error, rest = (name, message) :: later ∧
        s.register name message = .error error ∧ r.registerAll entries = (some error, s))

/-- A batch carries out its entries up to the first that fails. -/
theorem registerAll_cases (r : Registry) (entries : List (String × String)) :
    ∃ done rest s, entries = done ++ rest ∧
      done.foldlM (fun r e => r.register e.1 e.2) r = .ok s ∧
      ((rest = [] ∧ r.registerAll entries = (none, s)) ∨
        ∃ name message later error, rest = (name, message) :: later ∧
          s.register name message = .error error ∧ r.registerAll entries = (some error, s)) := by
  induction entries generalizing r with
  | nil => exact ⟨[], [], r, rfl, rfl, .inl ⟨rfl, rfl⟩⟩
  | cons e later ih =>
    cases hone : r.register e.1 e.2 with
    | ok next =>
      obtain ⟨done, rest, s, hsplit, hdone, hrest⟩ := ih next
      refine ⟨e :: done, rest, s, congrArg (e :: ·) hsplit, ?_, ?_⟩
      · rw [List.foldlM_cons, hone]
        exact hdone
      · rw [registerAll, hone]
        exact hrest
    | error error =>
      refine ⟨[], e :: later, r, rfl, rfl, .inr ⟨e.1, e.2, later, error, rfl, hone, ?_⟩⟩
      rw [registerAll, hone]

/-- **Registrations into a table that has grown.** -/
theorem Grown.registers {r : Registry} (grown : r.Grown) : r.Registers := by
  have h := grown.inStep
  constructor
  case ok_iff => exact fun name message => h.register_ok_iff
  case new =>
    intro name message hunknown
    refine ⟨r.insert name message, h.register_new hunknown message, ?_⟩
    show r.kinds ++ [⟨r.nextId, name, message⟩] = _
    rw [h.next]
    rfl
  case repeated =>
    intro name message hentry
    obtain ⟨kind, hkind, heq⟩ := List.mem_map.mp hentry
    cases heq
    rw [h.register_old hkind, if_pos rfl]
  case refused =>
    intro kind hkind message hother
    have herror := h.register_old hkind message
    rw [if_neg hother] at herror
    refine ⟨_, herror, grown.name_errorOf _, rfl, rfl, ?_⟩
    rw [carryOut, herror]
  case batch => exact registerAll_cases r

/-! ## Every run -/

/-- **The registry refines an ordered table that only grows.** -/
theorem run_refines (calls : List Registration) (few : (seeded.run calls).size < 2147483648) :
    (seeded.run calls).table =
        Builtin.entries ++ (firsts (applied Builtin.entries calls)).filter
          (fun e => e.1 ∉ Builtin.entries.map Prod.fst) ∧
      Builtin.entries.length = 46 ∧
      (∀ (place : Nat) (kind : ErrorKind), (seeded.run calls).kinds[place]? = some kind →
        kind.id = 7 - place ∧ fitsInt32 kind.id) ∧
      (∀ more, (seeded.run calls).kinds <+: (seeded.run (calls ++ more)).kinds) ∧
      (seeded.run calls).Registers ∧ (seeded.run calls).LooksUp := by
  have htracks := Tracks.seeded.run calls
  have grown := Grown.run calls
  refine ⟨?_, by decide, ?_, ?_, grown.registers, grown.looksUp few⟩
  · rw [htracks.table_eq, firsts_append, firsts_of_nodup Builtin.nodup_entries]
  · intro place kind hkind
    have hid := htracks.inStep.number place kind hkind
    have hlt : place < (seeded.run calls).size := (List.getElem?_eq_some_iff.mp hkind).1
    have hbase : baseId = 7 := rfl
    have hmin : Int32.minValue.toInt = -2147483648 := rfl
    have hmax : Int32.maxValue.toInt = 2147483647 := rfl
    refine ⟨by omega, ?_⟩
    rw [fitsInt32, hmin, hmax, Bool.and_eq_true, decide_eq_true_iff, decide_eq_true_iff]
    omega
  · intro more
    rw [run_append]
    exact kinds_prefix_run _ more

/-- A new kind, another message for it, a batch that stops at a built-in name, and a repetition. -/
def mixedCalls : List Registration :=
  [.single "Stalled" "Too slow.", .single "Stalled" "Too fast.",
    .batch [("Drained", "Nothing left."), ("NoError", "Fine."), ("Lost", "Gone.")],
    .single "Stalled" "Too slow."]

/-- The refused entry, the repeated one and those behind the built-in name use up no number. -/
theorem run_refines_mixedCalls :
    (seeded.run mixedCalls).size < 2147483648 ∧
      (seeded.run mixedCalls).table =
        Builtin.entries ++ [("Stalled", "Too slow."), ("Drained", "Nothing left.")] ∧
      (∃ kind, (seeded.run mixedCalls).kindOfName "Drained" = .ok kind ∧
        (seeded.run mixedCalls).kindOfId (-40) = .ok kind) ∧
      (seeded.run mixedCalls).Registers := by
  have few : (seeded.run mixedCalls).size < 2147483648 := by decide +kernel
  obtain ⟨htable, -, -, -, hregisters, hlooksUp⟩ := run_refines mixedCalls few
  have hnew : (firsts (applied Builtin.entries mixedCalls)).filter
      (fun e => e.1 ∉ Builtin.entries.map Prod.fst) =
        [("Stalled", "Too slow."), ("Drained", "Nothing left.")] := by decide +kernel
  have hid : (seeded.run mixedCalls).kindOfId (-40) = .ok ⟨-40, "Drained", "Nothing left."⟩ := by
    decide +kernel
  exact ⟨few, htable.trans (congrArg (Builtin.entries ++ ·) hnew),
    ⟨_, (hlooksUp.of_id _ _ hid).2, hid⟩, hregisters⟩

end Registry

end Marshal
