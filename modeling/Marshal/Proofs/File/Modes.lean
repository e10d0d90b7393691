import Marshal.File.Open
import Marshal.Proofs.Error.Registry

/-!
# `Proofs.File.Modes` — modes of opening are read exactly

Six names stand for a mode, and a mode may be written with one `b` in any place of its name. Nothing else is
read as a mode. What the mode asks of the host and what the system is asked for are two views of it, and
they go together: whatever is opened with read access only is neither created nor cut off, and nothing can
be written to it afterwards.

## Contents

* `Mode.names`, `Mode.parse_eq` — the names of modes, and reading as an equation;
* `Mode.Legal`, `Mode.parse_of_legal`, `Mode.parse_of_not_legal` — the texts that are read;
* `Tree.OpenedAs`, `Act.openPath_of_parse` — what opening does to the files;
* `Mode.Means`, `parse_exact` — what modes mean.
-/

namespace Marshal

open Marshal.File Marshal.Text

namespace File

/-! ## Reading -/

/-- The names of modes. -/
def Mode.names : List (List Char) := [['r'], ['w'], ['a'], ['r', '+'], ['w', '+'], ['a', '+']]

/-- If there is at most one of a character, then leaving all of them out is leaving out the first. -/
theorem filter_ne_eq_erase {c : Char} {text : List Char} (single : text.count c ≤ 1) :
    text.filter (· != c) = text.erase c := by
  induction text with
  | nil => rfl
  | cons d rest ih =>
    by_cases h : d = c
    · subst h
      have hnone : d ∉ rest := by
        rw [List.count_cons_self] at single
        exact List.count_eq_zero.mp (by omega)
      rw [List.erase_cons_head, List.filter_cons_of_neg (by simp)]
      refine List.filter_eq_self.mpr fun e he => ?_
      simpa using fun h : e = d => hnone (h ▸ he)
    · rw [List.count_cons_of_ne h] at single
      rw [List.filter_cons_of_pos (by simpa using h), List.erase_cons_tail (by simpa using h), ih single]

/-- **Reading as an equation.** -/
theorem Mode.parse_eq (text : String) :
    Mode.parse text =
      if text.toList.count 'b' ≤ 1 then
        (Mode.ofBase? (text.toList.erase 'b') (text.toList.contains 'b')).elim
          (.error (.openMode text)) .ok
      else .error (.openMode text) := by
  unfold Mode.parse
  dsimp only
  by_cases single : text.toList.count 'b' ≤ 1
  · rw [if_neg (Nat.not_lt.mpr single), if_pos single, filter_ne_eq_erase single]
    cases Mode.ofBase? (text.toList.erase 'b') (text.toList.contains 'b') <;> rfl
  · rw [if_pos (Nat.not_le.mp single), if_neg single]

/-- The mode of a name: a letter, and a plus that adds the other direction. -/
def Mode.ofName (name : List Char) (binary : Bool) : Mode where
  read := name = ['r'] ∨ '+' ∈ name
  write := name ≠ ['r']
  append := 'a' ∈ name
  truncate := 'w' ∈ name
  create := 'w' ∈ name ∨ 'a' ∈ name
  binary := binary

theorem Mode.ofBase?_of_mem : ∀ name ∈ Mode.names, ∀ binary,
    Mode.ofBase? name binary = some (Mode.ofName name binary) := by decide

/-- There is no `b` in a name. -/
theorem Mode.not_mem_name : ∀ name ∈ Mode.names, 'b' ∉ name := by decide

/-- Nothing else is the name of a mode. -/
theorem Mode.ofBase?_of_not_mem {name : List Char} (unknown : name ∉ Mode.names) (binary : Bool) :
    Mode.ofBase? name binary = none := by
  unfold Mode.ofBase?
  split
  case h_7 => rfl
  all_goals exact absurd (by decide) unknown

/-- The name in a text that may hold a `b`. -/
def Mode.nameIn (text : String) : List Char := text.toList.erase 'b'

/-- Whether a text is a name with at most one `b` in it. -/
def Mode.Legal (text : String) : Prop := text.toList.count 'b' ≤ 1 ∧ Mode.nameIn text ∈ Mode.names

/-- The mode of a legal text. -/
theorem Mode.parse_of_legal {text : String} (legal : Mode.Legal text) :
    Mode.parse text = .ok (Mode.ofName (Mode.nameIn text) (text.toList.contains 'b')) := by
  have known := Mode.ofBase?_of_mem _ legal.2 (text.toList.contains 'b')
  unfold Mode.nameIn at known ⊢
  rw [Mode.parse_eq, if_pos legal.1, known, Option.elim_some]

/-- No other text is read as a mode. -/
theorem Mode.parse_of_not_legal {text : String} (illegal : ¬ Mode.Legal text) :
    Mode.parse text = .error (.openMode text) := by
  rw [Mode.parse_eq]
  split
  case isTrue single =>
    have unknown : text.toList.erase 'b' ∉ Mode.names := fun known => illegal ⟨single, known⟩
    rw [Mode.ofBase?_of_not_mem unknown, Option.elim_none]
  case isFalse => rfl

/-- The name in a legal text is legal itself. -/
theorem Mode.Legal.name {text : String} (legal : Mode.Legal text) :
    Mode.Legal (String.ofList (Mode.nameIn text)) ∧
      Mode.nameIn (String.ofList (Mode.nameIn text)) = Mode.nameIn text ∧
      (String.ofList (Mode.nameIn text)).toList.contains 'b' = false := by
  have plain := Mode.not_mem_name _ legal.2
  have same : Mode.nameIn (String.ofList (Mode.nameIn text)) = Mode.nameIn text := by
    conv_lhs => rw [Mode.nameIn, String.toList_ofList]
    exact List.erase_of_not_mem plain
  refine ⟨⟨?_, ?_⟩, same, ?_⟩
  · rw [String.toList_ofList, List.count_eq_zero.mpr plain]
    exact Nat.zero_le 1
  · rw [same]
    exact legal.2
  · rw [String.toList_ofList]
    simpa using plain

/-! ## Opening -/

namespace Tree

/-- What opening a place for some purpose makes of the files. Nothing but the file itself is touched, and
it only if it has to be created or cut to nothing. -/
structure OpenedAs (t : Tree) (o : Options) (place : List Bytes) (t' : Tree) : Prop where
  file : ∀ contents, t.item? place = some (.file contents) →
    t' = if o.truncate then t.put place (.file []) else t
  directory : t.item? place = some .directory → o.canWrite = false ∧ t' = t
  nothing : t.item? place = none → o.create = true ∧ t' = t.put place (.file [])

theorem item?_of_step {t : Tree} {dir : List Bytes} {component : Bytes} {item : Item}
    (h : t.step dir component = .ok item) : t.item? (Tree.place dir component) = some item := by
  unfold step at h
  split at h
  · cases h
  · split at h
    · next found =>
      cases h
      exact found
    · cases h

theorem item?_of_step_notFound {t : Tree} {dir : List Bytes} {component : Bytes}
    (h : t.step dir component = .error .notFound) : t.item? (Tree.place dir component) = none := by
  unfold step at h
  split at h
  · cases h
  · split at h
    · cases h
    · next missing => exact missing

/-- **Opening touches only what is opened.** -/
theorem openedAs_of_openAt {t t' : Tree} {path : Bytes} {o : Options} {place : List Bytes}
    (opened : t.openAt path o = .ok (place, t')) : t.OpenedAs o place t' := by
  unfold openAt at opened
  split at opened
  · cases opened
  next dir last _ =>
  dsimp only at opened
  split at opened
  · cases opened
  -- What is found there answers one of the three questions; the other two do not arise.
  split at opened
  case h_1 missing =>
    have none := item?_of_step_notFound missing
    split at opened
    · next creates =>
      cases opened
      exact ⟨fun _ h => by simp [none] at h, fun h => by simp [none] at h, fun _ => ⟨creates, rfl⟩⟩
    · cases opened
  case h_2 => cases opened
  case h_3 found =>
    have directory := item?_of_step found
    split at opened
    · cases opened
    · next harmless =>
      cases opened
      exact ⟨fun _ h => by simp [directory] at h, fun _ => ⟨by simpa using harmless, rfl⟩,
        fun h => by simp [directory] at h⟩
  case h_4 contents found =>
    have file := item?_of_step found
    split at opened
    · cases opened
    split at opened
    · next truncates =>
      cases opened
      exact ⟨fun _ _ => (if_pos truncates).symm, fun h => by simp [file] at h, fun h => by simp [file] at h⟩
    · next keeps =>
      cases opened
      exact ⟨fun _ _ => (if_neg keeps).symm, fun h => by simp [file] at h, fun h => by simp [file] at h⟩

/-- Opening with nothing but reading in mind leaves all files as they are. -/
theorem OpenedAs.unchanged {t t' : Tree} {o : Options} {place : List Bytes} (h : t.OpenedAs o place t')
    (keeps : o.truncate = false) (finds : o.create = false) : t' = t := by
  cases hitem : t.item? place with
  | none =>
    have creates := (h.nothing hitem).1
    rw [finds] at creates
    cases creates
  | some item =>
    cases item with
    | file contents => rw [h.file contents hitem, keeps, if_neg Bool.false_ne_true]
    | directory => exact (h.directory hitem).2

end Tree

end File

/-- **Opening as an equation**, for a mode that has been read. -/
theorem Act.openPath_of_parse {text : String} {mode : Mode} (h : Mode.parse text = .ok mode)
    (path : String) (s : Session) :
    Act.openPath path text s =
      match s.permitPath path mode.access with
      | .error fault => .error (s.registry.errorOf fault) s
      | .ok () =>
        match s.files.openAt (bytesOf path) mode.options with
        | .error reason => .error (s.registry.errorOf (.openFailed path reason.message)) s
        | .ok (place, files) => .ok ⟨place, mode.options, 0⟩ { s with files } := by
  show (Act.ofExcept (Mode.parse text) >>= _) s = _
  rw [h]
  show (Act.read (·.permitPath path mode.access) >>= _) s = _
  cases hpermit : s.permitPath path mode.access with
  | error fault =>
    show EStateM.bind _ _ s = _
    simp only [EStateM.bind, Act.read_eq, hpermit]
  | ok u =>
    show EStateM.bind _ _ s = _
    simp only [EStateM.bind, Act.read_eq, hpermit]
    show (match s.files.openAt (bytesOf path) mode.options with
      | .error reason => Act.fail (.openFailed path reason.message)
      | .ok (place, files) => do
        set { s with files }
        return (⟨place, mode.options, 0⟩ : Opened)) s = _
    cases s.files.openAt (bytesOf path) mode.options <;> rfl

/-- What cannot be written to is left alone by writing. -/
theorem Opened.write_of_readOnly {f : Opened} (readOnly : f.options.canWrite = false) (data : Bytes)
    (s : Session) : f.write data s = .ok (data.isEmpty, f) s := by
  unfold Opened.write
  cases hempty : data.isEmpty with
  | true => rfl
  | false =>
    rw [readOnly]
    rfl

namespace File

/-- **What the mode in a text means.** -/
structure Mode.Means (mode : Mode) (text : String) : Prop where
  /-- The `b` is remembered. -/
  binary : mode.binary = true ↔ 'b' ∈ text.toList
  /-- Without it the same is read, but for the memory. -/
  plain : Mode.parse (String.ofList (Mode.nameIn text)) = .ok { mode with binary := false }
  reads : mode.read = true ↔
    Mode.nameIn text = ['r'] ∨ Mode.nameIn text ∈ [['r', '+'], ['w', '+'], ['a', '+']]
  appends : mode.append = true ↔ Mode.nameIn text ∈ [['a'], ['a', '+']]
  truncates : mode.truncate = true ↔ Mode.nameIn text ∈ [['w'], ['w', '+']]
  creates : mode.create = true ↔ Mode.nameIn text ∈ [['w'], ['a'], ['w', '+'], ['a', '+']]
  /-- The system is asked for what the mode says. -/
  asked : mode.options.read = mode.read ∧ mode.options.append = mode.append ∧
    mode.options.truncate = mode.truncate ∧ mode.options.create = mode.create ∧
    mode.options.canWrite = mode.write
  /-- The host is asked to allow writing exactly if something could be changed. -/
  access : mode.access = .write ↔
    mode.options.write = true ∨ mode.options.append = true ∨ mode.options.create = true ∨
      mode.options.truncate = true
  /-- Whatever is opened has been allowed, and it is opened for what the mode says. -/
  opened : ∀ path s f s', Act.openPath path text s = .ok f s' →
    s.permitPath path mode.access = .ok () ∧ f.options = mode.options ∧
      s' = { s with files := s'.files } ∧ s.files.OpenedAs mode.options f.place s'.files
  /-- An opening that fails has no effect. -/
  failed : ∀ path s e s', Act.openPath path text s = .error e s' → s' = s
  /-- Whoever has been asked for reading only gets no change, neither by opening nor by writing. -/
  harmless : mode.access = .read → ∀ path s f s', Act.openPath path text s = .ok f s' →
    s' = s ∧ ∀ data t, f.write data t = .ok (data.isEmpty, f) t

/-- The settings of a mode with a name. -/
theorem Mode.settings : ∀ name ∈ Mode.names, ∀ binary, let mode := Mode.ofName name binary
    (mode.read = true ↔ name = ['r'] ∨ name ∈ [['r', '+'], ['w', '+'], ['a', '+']]) ∧
    (mode.append = true ↔ name ∈ [['a'], ['a', '+']]) ∧
    (mode.truncate = true ↔ name ∈ [['w'], ['w', '+']]) ∧
    (mode.create = true ↔ name ∈ [['w'], ['a'], ['w', '+'], ['a', '+']]) ∧
    mode.options.canWrite = mode.write ∧
    (mode.access = .write ↔
      mode.options.write = true ∨ mode.options.append = true ∨ mode.options.create = true ∨
        mode.options.truncate = true) := by decide

/-- **A legal text means what its name says.** -/
theorem Mode.means_of_legal {text : String} (legal : Mode.Legal text) :
    (Mode.ofName (Mode.nameIn text) (text.toList.contains 'b')).Means text := by
  obtain ⟨reads, appends, truncates, creates, writes, access⟩ :=
    Mode.settings _ legal.2 (text.toList.contains 'b')
  have parsed := Mode.parse_of_legal legal
  generalize hmode : Mode.ofName (Mode.nameIn text) (text.toList.contains 'b') = mode at *
  have opened : ∀ path s f s', Act.openPath path text s = .ok f s' →
      s.permitPath path mode.access = .ok () ∧ f.options = mode.options ∧
        s' = { s with files := s'.files } ∧ s.files.OpenedAs mode.options f.place s'.files := by
    intro path s f s' h
    rw [Act.openPath_of_parse parsed] at h
    split at h
    · cases h
    next permitted =>
    split at h
    · cases h
    next place files found =>
    cases h
    exact ⟨permitted, rfl, rfl, Tree.openedAs_of_openAt found⟩
  refine
    { binary := ?binary, plain := ?plain, reads := reads, appends := appends, truncates := truncates
      creates := creates, asked := ⟨rfl, rfl, rfl, rfl, writes⟩, access := access
      opened := opened, failed := ?failed, harmless := ?harmless }
  case binary =>
    rw [← hmode]
    show text.toList.contains 'b' = true ↔ _
    exact List.contains_iff_mem
  case plain =>
    obtain ⟨nameLegal, same, plain⟩ := legal.name
    rw [Mode.parse_of_legal nameLegal, same, plain, ← hmode]
    rfl
  case failed =>
    intro path s e s' h
    rw [Act.openPath_of_parse parsed] at h
    split at h
    · cases h
      rfl
    · split at h <;> cases h
      rfl
  case harmless =>
    intro readOnly path s f s' h
    -- By `access` nothing else can be asked of the system along with read access.
    have nothing := mt access.mpr (by rw [readOnly]; exact nofun)
    simp only [not_or, Bool.not_eq_true] at nothing
    obtain ⟨write, append, create, truncate⟩ := nothing
    obtain ⟨-, hoptions, hframe, files⟩ := opened path s f s' h
    refine ⟨?_, fun data t => Opened.write_of_readOnly ?_ data t⟩
    · rw [hframe, files.unchanged truncate create]
    · rw [hoptions, Options.canWrite, write, append]
      rfl

end File

/-! ## Every text -/

/-- **Modes are read exactly.** A text is read as a mode exactly if it has at most one `b` in it and is one of
the six names without it. Anything else is refused with an error that carries the text, and nothing is
opened then, whatever kinds of errors have been registered. -/
theorem parse_exact (text : String) :
    ((∃ mode, Mode.parse text = .ok mode) ↔
      text.toList.count 'b' ≤ 1 ∧ text.toList.erase 'b' ∈ Mode.names) ∧
    (∀ mode, Mode.parse text = .ok mode → mode.Means text) ∧
    ((∀ mode, Mode.parse text ≠ .ok mode) →
      Mode.parse text = .error (.openMode text) ∧
      ∀ (calls : List Registration) (s : Session), s.registry = Registry.seeded.run calls →
        ∀ path, ∃ e, Act.openPath path text s = .error e s ∧
          e.kind.name = "InvalidOpenMode" ∧ e.detail = text) := by
  by_cases legal : Mode.Legal text
  case pos =>
    have parsed := Mode.parse_of_legal legal
    refine ⟨iff_of_true ⟨_, parsed⟩ legal, ?_, ?_⟩
    · intro mode h
      obtain rfl := Except.ok.inj (parsed.symm.trans h)
      exact Mode.means_of_legal legal
    · intro none
      exact absurd parsed (none _)
  case neg =>
    have refused := Mode.parse_of_not_legal legal
    have none : ∀ mode, Mode.parse text ≠ .ok mode := by simp [refused]
    refine ⟨iff_of_false (fun ⟨mode, h⟩ => none mode h) legal, ?_, ?_⟩
    · intro mode h
      exact absurd h (none mode)
    · refine fun _ => ⟨refused, fun calls s registered path => ?_⟩
      refine ⟨s.registry.errorOf (.openMode text), ?_, ?_, rfl⟩
      · show (Act.ofExcept (Mode.parse text) >>= _) s = _
        rw [refused]
        rfl
      · rw [registered]
        exact (Registry.Grown.run calls).name_errorOf _

/-- A mode that can create a file, and a text with one `b` too many. -/
theorem parse_exact_examples :
    (∃ mode, Mode.parse "ab+" = .ok mode ∧ mode.Means "ab+" ∧ mode.access = .write) ∧
    ∃ e, Act.openPath "f" "rbb" {} = .error e {} ∧ e.kind.name = "InvalidOpenMode" ∧ e.detail = "rbb" := by
  have legal : "ab+".toList.count 'b' ≤ 1 ∧ "ab+".toList.erase 'b' ∈ Mode.names := by decide
  obtain ⟨mode, parsed⟩ := (parse_exact "ab+").1.mpr legal
  have means := (parse_exact "ab+").2.1 mode parsed
  refine ⟨⟨mode, parsed, means, ?_⟩, ?_⟩
  · have creates : mode.create = true := means.creates.mpr (by decide)
    exact means.access.mpr (.inr (.inr (.inl (means.asked.2.2.2.1.trans creates))))
  · have refused : ∀ mode, Mode.parse "rbb" ≠ .ok mode := fun mode h =>
      absurd ((parse_exact "rbb").1.mp ⟨mode, h⟩) (by decide)
    exact ((parse_exact "rbb").2.2 refused).2 [] {} rfl "f"

end Marshal
