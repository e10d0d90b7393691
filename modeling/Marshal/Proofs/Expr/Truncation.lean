import Marshal.Proofs.Expr.Codec

/-!
# `Proofs.Expr.Truncation` — expressions that are cut off

The bytes of an expression are a row of fields: numbers of a fixed size, and the bodies of texts, each
of them after the number of its bytes. Where the bytes end too early they end inside one of these
fields, at whatever depth of nesting. Every field before it is read as what it is, so the reader comes
to that field and finds too little left. It says so before it looks at what is left: the bytes of a
text are counted before they are taken for characters, so a character that is cut in two is never seen.

## Contents

* `Field`, `Expr.fields`, `Expr.encode_eq_fields` — an expression as a row of fields;
* `EndsIn`, `exists_endsIn` — bytes that end inside a field;
* `StopsIn` — readers that stop at the field inside which the bytes end, with `readNumber`, `readText`,
  `readMany` and `Expr.decodeFrom` among them;
* `Expr.decode_truncated` — what is said of an expression that is cut off.
-/

namespace Marshal

open Marshal.Number Marshal.Text

-- powers of integers are those of core, whatever algebra is in scope
attribute [local instance (2000)] instPowNat

/-! ## Fields -/

/-- A piece of an encoding that is read as a whole: a number in a fixed count of bytes, or the bytes of a
text whose count has been read. -/
inductive Field
  | number (size n : Nat)
  | body (s : String)
  deriving DecidableEq, Repr

namespace Field

def bytes : Field → Bytes
  | number size n => leBytes size n
  | body s => bytesOf s

/-- The fault of bytes that end inside the field. -/
def fault : Field → DecodeFault
  | number .. => .endOfInput
  | body _ => .textPastEnd

/-- The fields of a text: the count of its bytes, and its bytes. -/
def text (s : String) : List Field := [number 8 (bytesOf s).length, body s]

theorem flatMap_text (s : String) : (text s).flatMap bytes = encodeText s := by
  rw [text, List.flatMap_cons, List.flatMap_singleton]
  rfl

end Field

namespace Expr

mutual

/-- The fields of an expression, in the order in which they are written. -/
def fields : Expr → List Field
  | .integer v => [.number 4 0, .number 8 v.toUInt64.toNat]
  | .real x => [.number 4 1, .number 8 x.bits.toNat]
  | .string s => .number 4 2 :: Field.text s
  | .symbol s => .number 4 3 :: Field.text s
  | .function head args =>
    .number 4 4 :: (Field.text head ++ .number 8 args.length :: fieldsAll args)

/-- The fields of expressions, one after the other. -/
def fieldsAll : List Expr → List Field
  | [] => []
  | x :: xs => fields x ++ fieldsAll xs

end

theorem fieldsAll_eq_flatMap (xs : List Expr) : fieldsAll xs = xs.flatMap fields := by
  induction xs with
  | nil => rfl
  | cons x xs ih => rw [fieldsAll, ih, List.flatMap_cons]

mutual

/-- **An expression is written field by field.** -/
theorem encode_eq_fields (e : Expr) : e.encode = e.fields.flatMap Field.bytes := by
  cases e with
  | integer v | real x =>
    rw [fields, List.flatMap_cons, List.flatMap_singleton]
    rfl
  | string s | symbol s =>
    rw [fields, List.flatMap_cons, Field.flatMap_text]
    rfl
  | function head args =>
    rw [fields, List.flatMap_cons, List.flatMap_append, List.flatMap_cons, Field.flatMap_text,
      ← encodeAll_eq_fields args]
    simp only [encode, List.append_assoc]
    rfl

theorem encodeAll_eq_fields (xs : List Expr) :
    encodeAll xs = (fieldsAll xs).flatMap Field.bytes := by
  cases xs with
  | nil => rfl
  | cons x xs =>
    rw [fieldsAll, List.flatMap_append, ← encode_eq_fields x, ← encodeAll_eq_fields xs, encodeAll]

end

end Expr

/-! ## Bytes that end inside a field -/

/-- Bytes that begin a row of fields and end inside the field `f`: after some of its bytes or before the
first of them, but not after the last. -/
inductive EndsIn : Bytes → List Field → Field → Prop
  | here {p : Bytes} {f : Field} {later : List Field} (begun : p <+: f.bytes) (cut : p ≠ f.bytes) :
      EndsIn p (f :: later) f
  | after {p : Bytes} {f g : Field} {later : List Field} (ends : EndsIn p later f) :
      EndsIn (g.bytes ++ p) (g :: later) f

/-- Bytes that begin a row of fields and do not fill it end inside one of them. -/
theorem exists_endsIn {fields : List Field} {p : Bytes} (begun : p <+: fields.flatMap Field.bytes)
    (cut : p ≠ fields.flatMap Field.bytes) : ∃ f, EndsIn p fields f := by
  induction fields generalizing p with
  | nil => exact absurd (List.prefix_nil.mp begun) cut
  | cons g later ih =>
    rw [List.flatMap_cons] at begun cut
    rcases List.prefix_or_prefix_of_prefix begun (List.prefix_append _ _) with short | long
    · -- the bytes do not get past the first field
      by_cases whole : p = g.bytes
      · subst whole
        have rest : ([] : Bytes) ≠ later.flatMap Field.bytes := by
          intro empty
          rw [← empty, List.append_nil] at cut
          exact cut rfl
        obtain ⟨f, ends⟩ := ih (List.nil_prefix) rest
        exact ⟨f, List.append_nil g.bytes ▸ .after ends⟩
      · exact ⟨g, .here short whole⟩
    · obtain ⟨q, rfl⟩ := long
      have begun' : q <+: later.flatMap Field.bytes := (List.prefix_append_right_inj _).mp begun
      obtain ⟨f, ends⟩ := ih begun' fun whole => cut (whole ▸ rfl)
      exact ⟨f, .after ends⟩

/-- Bytes that end inside two rows of fields end inside the first, or fill it and end inside the
second. -/
theorem EndsIn.append {xs ys : List Field} {p : Bytes} {f : Field} (ends : EndsIn p (xs ++ ys) f) :
    EndsIn p xs f ∨ ∃ q, p = xs.flatMap Field.bytes ++ q ∧ EndsIn q ys f := by
  induction xs generalizing p with
  | nil => exact .inr ⟨p, rfl, ends⟩
  | cons g xs ih =>
    cases ends with
    | here begun cut => exact .inl (.here begun cut)
    | after ends =>
      rcases ih ends with first | ⟨q, rfl, second⟩
      · exact .inl (.after first)
      · refine .inr ⟨q, ?_, second⟩
        rw [List.flatMap_cons, List.append_assoc]

/-- Bytes that fill some fields and begin the next one end inside that one. -/
theorem endsIn_of_filled (done later : List Field) {p : Bytes} {f : Field} (begun : p <+: f.bytes)
    (cut : p ≠ f.bytes) : EndsIn (done.flatMap Field.bytes ++ p) (done ++ f :: later) f := by
  induction done with
  | nil => exact .here begun cut
  | cons g done ih =>
    rw [List.flatMap_cons, List.append_assoc, List.cons_append]
    exact .after ih

/-- Bytes inside a field are fewer than the field has. -/
theorem length_lt_of_begun {p b : Bytes} (begun : p <+: b) (cut : p ≠ b) : p.length < b.length :=
  Nat.lt_of_le_of_ne begun.length_le fun same => cut (begun.eq_of_length same)

/-! ## Readers that stop where the bytes end -/

/-- A reader stops at the field inside which the bytes end, with the fault of that field. -/
def StopsIn {α : Type} (read : Reader α) (fields : List Field) : Prop :=
  ∀ p f, EndsIn p fields f → read p = .error f.fault

theorem readNumber_stopsIn (size n : Nat) : StopsIn (readNumber size) [.number size n] := by
  intro p f ends
  cases ends with
  | here begun cut =>
    have short := length_lt_of_begun begun cut
    rw [Field.bytes, length_leBytes] at short
    exact if_pos short
  | after ends => cases ends

/-- A text stops at its count or at its bytes. What is left of its bytes is not looked at. -/
theorem readText_stopsIn {s : String} (bytes : s.utf8ByteSize < UInt64.size) :
    StopsIn readText (Field.text s) := by
  intro p f ends
  cases ends with
  | here begun cut =>
    have stopped := readNumber_stopsIn 8 (bytesOf s).length p _ (.here begun cut)
    rw [readText, stopped]
    rfl
  | after ends =>
    cases ends with
    | here begun cut =>
      rw [← length_bytesOf] at bytes
      exact readText_short bytes (length_lt_of_begun begun cut)
    | after ends => cases ends

/-- **Readers of things one after the other stop** where the reader of one of them does. -/
theorem readMany_stopsIn {α : Type} {read : Reader α} {fieldsOf : α → List Field} {xs : List α}
    (reads : ∀ x ∈ xs, ∀ rest, read ((fieldsOf x).flatMap Field.bytes ++ rest) = .ok (x, rest))
    (stops : ∀ x ∈ xs, StopsIn read (fieldsOf x)) :
    StopsIn (readMany read xs.length) (xs.flatMap fieldsOf) := by
  induction xs with
  | nil =>
    intro p f ends
    cases ends
  | cons x xs ih =>
    intro p f ends
    obtain ⟨readsFirst, readsRest⟩ := List.forall_mem_cons.mp reads
    obtain ⟨stopsFirst, stopsRest⟩ := List.forall_mem_cons.mp stops
    rw [List.flatMap_cons] at ends
    rw [List.length_cons, readMany]
    rcases ends.append with first | ⟨q, rfl, later⟩
    · rw [stopsFirst p f first, error_bind]
    · rw [readsFirst, ok_bind]
      dsimp only
      rw [ih readsRest stopsRest q f later, error_bind]

namespace Expr

section Fields

variable {depth : Nat} {p : Bytes} {f : Field}

/-- An expression that is cut off inside its variant number is not looked at further. -/
theorem decodeFrom_of_begun {variant : Nat} (begun : p <+: word32 variant)
    (cut : p ≠ word32 variant) : decodeFrom (depth + 1) p = .error .endOfInput := by
  rw [decodeFrom, readNumber_stopsIn 4 variant p _ (.here begun cut), error_bind]
  rfl

/-- What has a number stops inside it. -/
theorem decodeFrom_number_of_endsIn {variant n : Nat} (isNumber : variant = 0 ∨ variant = 1)
    (ends : EndsIn p [.number 8 n] f) :
    decodeFrom (depth + 1) (word32 variant ++ p) = .error f.fault := by
  have hvariant : variant < UInt32.size := by rcases isNumber with rfl | rfl <;> decide
  have stopped := readNumber_stopsIn 8 n p f ends
  rcases isNumber with rfl | rfl <;>
    simp only [decodeFrom, readNumber_word32 hvariant, stopped, ok_bind, error_bind]

/-- What has a text stops where the reader of the text does. -/
theorem decodeFrom_text_of_endsIn {variant : Nat} {s : String}
    (isText : variant = 2 ∨ variant = 3 ∨ variant = 4) (bytes : s.utf8ByteSize < UInt64.size)
    (ends : EndsIn p (Field.text s) f) :
    decodeFrom (depth + 1) (word32 variant ++ p) = .error f.fault := by
  have hvariant : variant < UInt32.size := by rcases isText with rfl | rfl | rfl <;> decide
  have stopped := readText_stopsIn bytes p f ends
  rcases isText with rfl | rfl | rfl <;>
    simp only [decodeFrom, readNumber_word32 hvariant, stopped, ok_bind, error_bind]

/-- An application stops inside the count of its arguments. -/
theorem decodeFrom_count_of_endsIn {head : String} {n : Nat} (bytes : head.utf8ByteSize < UInt64.size)
    (ends : EndsIn p [.number 8 n] f) :
    decodeFrom (depth + 1) (word32 4 ++ (encodeText head ++ p)) = .error f.fault := by
  have stopped := readNumber_stopsIn 8 n p f ends
  simp only [decodeFrom, readNumber_word32 (n := 4) (by decide), readText_encodeText bytes, stopped,
    ok_bind, error_bind]

end Fields

/-- **One expression stops** at the field inside which the bytes end, as far as the depth allows to read
it at all. The induction is on the expression, whose arguments are read with one depth less. -/
theorem decodeFrom_stopsIn {e : Expr} (storable : e.Storable) {depth : Nat}
    (hheight : e.height ≤ depth) : StopsIn (decodeFrom depth) e.fields := by
  induction storable generalizing depth with
  | integer v | real x =>
    intro p f ends
    obtain ⟨depth, rfl⟩ := Nat.exists_eq_add_one_of_ne_zero (Nat.ne_of_gt hheight)
    cases ends with
    | here begun cut => exact decodeFrom_of_begun begun cut
    | after ends => exact decodeFrom_number_of_endsIn (by decide) ends
  | string bytes | symbol bytes =>
    intro p f ends
    obtain ⟨depth, rfl⟩ := Nat.exists_eq_add_one_of_ne_zero (Nat.ne_of_gt hheight)
    cases ends with
    | here begun cut => exact decodeFrom_of_begun begun cut
    | after ends => exact decodeFrom_text_of_endsIn (by decide) bytes ends
  | @function head args bytes counted all ih =>
    intro p f ends
    obtain ⟨depth, rfl⟩ := Nat.exists_eq_add_one_of_ne_zero (Nat.ne_zero_of_lt hheight)
    have hargs := heightAll_le_iff.mp (Nat.le_of_succ_le_succ hheight)
    cases ends with
    | here begun cut => exact decodeFrom_of_begun begun cut
    | after ends =>
      rcases ends.append with inHead | ⟨q, rfl, behind⟩
      · exact decodeFrom_text_of_endsIn (by decide) bytes inHead
      · rw [Field.flatMap_text]
        cases behind with
        | here begun cut => exact decodeFrom_count_of_endsIn bytes (.here begun cut)
        | after inArgs =>
          have stops : StopsIn (readMany (decodeFrom depth) args.length) (args.flatMap fields) :=
            readMany_stopsIn
              (fun x hx rest => decodeFrom_eq_ok_iff.mpr
                ⟨⟨all x hx, hargs x hx⟩, by rw [encode_eq_fields]⟩)
              (fun x hx => ih x hx (hargs x hx))
          rw [fieldsAll_eq_flatMap] at inArgs
          have stopped := stops _ _ inArgs
          show decodeFrom (depth + 1)
            (word32 4 ++ (encodeText head ++ (word64 args.length ++ _))) = _
          rw [decodeFrom_function bytes counted, stopped]
          rfl

/-! ## Expressions that are cut off -/

/-- What is said of bytes that end inside a field: that they end there. -/
def endReport : Field → String
  | .number .. => "Bincode error: io error: unexpected end of file"
  | .body _ => "Bincode error: io error: "

/-- **An expression that is cut off is reported as the end of the input**, wherever it is cut: at any depth
of nesting, between two fields or inside one, also between the bytes of one character. The bytes end
inside a field of the expression, and the fault is the one of that field, so it is never about a variant
number or about UTF-8, and no expression is found. -/
theorem decode_truncated {e : Expr} (storable : e.Storable) {p : Bytes} (begun : p <+: e.encode)
    (cut : p ≠ e.encode) :
    (∃ f, EndsIn p e.fields f) ∧ ∀ f, EndsIn p e.fields f →
      decode p = .error f.fault ∧ (ExprError.undecodable f.fault).message = endReport f := by
  constructor
  · rw [encode_eq_fields] at begun cut
    exact exists_endsIn begun cut
  · intro f ends
    have hlength := length_lt_of_begun begun cut
    -- the whole expression would be read with this depth, and for what is left of it the depth does
    -- not matter
    have stopped := decodeFrom_stopsIn storable (Nat.le_succ_of_le e.height_le_length) p f ends
    rw [decodeFrom_congr (Nat.lt_succ_of_lt hlength) (Nat.lt_succ_self p.length)] at stopped
    refine ⟨by rw [decode, stopped]; rfl, ?_⟩
    cases f <;> rfl

/-- A text of two characters, and an integer in an application inside an application. -/
def textThenInteger : Expr := function "f" [string "aé", function "g" [integer 5]]

/-- Half of the second character is too little of a text, and two bytes are too little of a number. -/
theorem decode_truncated_textThenInteger :
    textThenInteger.Storable ∧
      (textThenInteger.encode.take 35 <+: textThenInteger.encode ∧
        textThenInteger.encode.take 35 ≠ textThenInteger.encode ∧
        decode (textThenInteger.encode.take 35) = .error .textPastEnd) ∧
      (textThenInteger.encode.take 63 <+: textThenInteger.encode ∧
        textThenInteger.encode.take 63 ≠ textThenInteger.encode ∧
        decode (textThenInteger.encode.take 63) = .error .endOfInput) := by
  have storable : textThenInteger.Storable := by
    refine .function (by decide) (by decide) ?_
    simp only [List.forall_mem_cons]
    refine ⟨.string (by decide), .function (by decide) (by decide) ?_, by simp⟩
    simp only [List.forall_mem_cons]
    exact ⟨.integer 5, by simp⟩
  have inText : EndsIn (textThenInteger.encode.take 35) textThenInteger.fields (.body "aé") := by
    have filled := endsIn_of_filled (textThenInteger.fields.take 6) (textThenInteger.fields.drop 7)
      (p := [0x61, 0xc3]) (f := .body "aé") (by decide +kernel) (by decide +kernel)
    have hfields : textThenInteger.fields.take 6 ++ .body "aé" :: textThenInteger.fields.drop 7 =
      textThenInteger.fields := by decide +kernel
    have hbytes : (textThenInteger.fields.take 6).flatMap Field.bytes ++ [0x61, 0xc3] =
      textThenInteger.encode.take 35 := by decide +kernel
    rwa [hfields, hbytes] at filled
  have inNumber : EndsIn (textThenInteger.encode.take 63) textThenInteger.fields (.number 8 5) := by
    have filled := endsIn_of_filled (textThenInteger.fields.take 12) [] (p := [5, 0])
      (f := .number 8 5) (by decide +kernel) (by decide +kernel)
    have hfields : textThenInteger.fields.take 12 ++ [.number 8 5] = textThenInteger.fields := by
      decide +kernel
    have hbytes : (textThenInteger.fields.take 12).flatMap Field.bytes ++ [5, 0] =
      textThenInteger.encode.take 63 := by decide +kernel
    rwa [hfields, hbytes] at filled
  have cut : textThenInteger.encode.take 35 ≠ textThenInteger.encode := by decide +kernel
  have cut' : textThenInteger.encode.take 63 ≠ textThenInteger.encode := by decide +kernel
  have inCharacter := (decode_truncated storable (List.take_prefix 35 _) cut).2 _ inText
  have inInteger := (decode_truncated storable (List.take_prefix 63 _) cut').2 _ inNumber
  exact ⟨storable, ⟨List.take_prefix 35 _, cut, inCharacter.1⟩,
    List.take_prefix 63 _, cut', inInteger.1⟩

end Expr

end Marshal
