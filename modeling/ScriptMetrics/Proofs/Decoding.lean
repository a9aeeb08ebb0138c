import ScriptMetrics.Text.Utf8

/-!
Decoding what was encoded, and what was cut out of it. How a character is spelled is said once
(`Spelled`): a byte that stands for it alone, or a byte that begins it and trailing bytes that complete
it. From that follows how bytes are read: the spelling of a character as that character, the start of a
spelling as one replacement, and trailing bytes without their start as one replacement each. A range of
an encoded text falls into a part of each kind.
-/

namespace ScriptMetrics.Utf8

open String (utf8EncodeChar)

/-- A byte that can only continue a character. -/
def IsTrail (byte : UInt8) : Prop :=
  0x80 ≤ byte.toNat ∧ byte.toNat ≤ 0xBF

/-- Bytes that complete a character begun to the given code point. -/
inductive Completes : Partial → List UInt8 → Nat → Prop where
  | last {low high bits code : Nat} {byte : UInt8} (trail : IsTrail byte)
      (within : low ≤ byte.toNat ∧ byte.toNat ≤ high) (ends : bits * 64 + (byte.toNat - 0x80) = code) :
      Completes ⟨1, low, high, bits⟩ [byte] code
  | more {owed low high bits code : Nat} {byte : UInt8} {rest : List UInt8} (trail : IsTrail byte)
      (within : low ≤ byte.toNat ∧ byte.toNat ≤ high)
      (onward : Completes ⟨owed + 1, 0x80, 0xBF, bits * 64 + (byte.toNat - 0x80)⟩ rest code) :
      Completes ⟨owed + 2, low, high, bits⟩ (byte :: rest) code

/-- Bytes that spell a character. -/
inductive Spelled (char : Char) : List UInt8 → Prop where
  | alone (byte : UInt8) (whole : lead byte.toNat = .whole char) : Spelled char [byte]
  | begun (byte : UInt8) (rest : List UInt8) (begun : Partial) (starts : lead byte.toNat = .start begun)
      (completes : Completes begun rest char.toNat) : Spelled char (byte :: rest)

section Leads

variable {byte : Nat}

theorem lead_one (high : byte < 0x80) : lead byte = .whole (Char.ofNat byte) := by
  rw [lead, if_pos high]

theorem lead_trail (low : 0x80 ≤ byte) (high : byte ≤ 0xBF) : lead byte = .stray := by
  rw [lead, if_neg (by omega), if_pos (by omega)]

theorem lead_two (low : 0xC2 ≤ byte) (high : byte < 0xE0) :
    lead byte = .start ⟨1, 0x80, 0xBF, byte - 0xC0⟩ := by
  rw [lead, if_neg (by omega), if_neg (by omega), if_pos high]

theorem lead_three (low : 0xE0 ≤ byte) (high : byte < 0xF0) :
    lead byte = .start ⟨2, if byte = 0xE0 then 0xA0 else 0x80, if byte = 0xED then 0x9F else 0xBF,
      byte - 0xE0⟩ := by
  rw [lead, if_neg (by omega), if_neg (by omega), if_neg (by omega)]
  by_cases first : byte = 0xE0
  · simp [first]
  · by_cases surrogate : byte = 0xED
    · simp [surrogate]
    · simp [first, surrogate, high]

theorem lead_four (low : 0xF0 ≤ byte) (high : byte ≤ 0xF4) :
    lead byte = .start ⟨3, if byte = 0xF0 then 0x90 else 0x80, if byte = 0xF4 then 0x8F else 0xBF,
      byte - 0xF0⟩ := by
  rw [lead, if_neg (by omega), if_neg (by omega), if_neg (by omega), if_neg (by omega), if_neg (by omega),
    if_neg (by omega)]
  by_cases first : byte = 0xF0
  · simp [first]
  · by_cases last : byte = 0xF4
    · simp [last]
    · have inner : byte < 0xF4 := by omega
      simp [first, last, inner]

end Leads

theorem toNat_byte {n : Nat} (small : n < 256) : (UInt8.ofNat n).toNat = n :=
  UInt8.toNat_ofNat_of_lt' small

theorem toNat_trail (n : Nat) : (UInt8.ofNat (n % 64 + 128)).toNat = n % 64 + 128 :=
  toNat_byte (by omega)

theorem isTrail_ofNat (n : Nat) : IsTrail (UInt8.ofNat (n % 64 + 128)) := by
  rw [IsTrail, toNat_trail]
  omega

/-- The bytes that a character is encoded to spell it. -/
theorem encode_spelled (char : Char) : Spelled char (utf8EncodeChar char) := by
  have valid : char.toNat < 0xD800 ∨ 0xDFFF < char.toNat ∧ char.toNat < 0x110000 := char.valid
  unfold utf8EncodeChar
  simp only [show char.val.toNat = char.toNat from rfl]
  split
  · refine .alone _ ?_
    rw [toNat_byte (by omega), lead_one (by omega), Char.ofNat_toNat]
  split
  · refine .begun _ _ _ (by rw [toNat_byte (by omega), lead_two (by omega) (by omega)]) (.last (isTrail_ofNat _) ?_ ?_)
    · exact isTrail_ofNat _
    · rw [toNat_trail]
      omega
  -- What the second byte may be depends on the first where a shorter spelling or a surrogate is near.
  split
  · refine .begun _ _ _ (by rw [toNat_byte (by omega), lead_three (by omega) (by omega)])
      (.more (isTrail_ofNat _) ?_ (.last (isTrail_ofNat _) (isTrail_ofNat _) ?_))
    · rw [toNat_trail]
      constructor <;> split <;> omega
    · rw [toNat_trail, toNat_trail]
      omega
  · refine .begun _ _ _ (by rw [toNat_byte (by omega), lead_four (by omega) (by omega)])
      (.more (isTrail_ofNat _) ?_
        (.more (isTrail_ofNat _) (isTrail_ofNat _) (.last (isTrail_ofNat _) (isTrail_ofNat _) ?_)))
    · rw [toNat_trail]
      constructor <;> split <;> omega
    · rw [toNat_trail, toNat_trail, toNat_trail]
      omega

theorem push_append_ofList (text : String) (char : Char) (rest : List Char) :
    text.push char ++ String.ofList rest = text ++ String.ofList (char :: rest) := by
  apply String.ext
  simp

/-- What is read when some text has been read already and no character is begun. -/
def decodeOnto (text : String) (bytes : List UInt8) : String :=
  (bytes.foldl Decoder.step { text }).finish

section Reading

variable {begun : Partial} {bytes : List UInt8} {code : Nat}

theorem Completes.isTrail (completes : Completes begun bytes code) : ∀ byte ∈ bytes, IsTrail byte := by
  induction completes with
  | last trail _ _ => exact List.forall_mem_singleton.mpr trail
  | more trail _ _ ih => exact List.forall_mem_cons.mpr ⟨trail, ih⟩

theorem Completes.foldl_step (completes : Completes begun bytes code) (text : String) :
    bytes.foldl Decoder.step { text, begun } = { text := text.push (Char.ofNat code) } := by
  induction completes with
  | last _ within ends => simp [Decoder.step, within, ends]
  | more _ within _ ih => simpa [Decoder.step, within] using ih

theorem Completes.foldl_take (completes : Completes begun bytes code) (text : String) (count : Nat)
    (short : count < bytes.length) :
    ∃ left, (bytes.take count).foldl Decoder.step { text, begun } = { text, begun := some left } := by
  induction completes generalizing count with
  | last _ _ _ =>
      obtain rfl : count = 0 := by simpa using short
      exact ⟨_, rfl⟩
  | more _ within _ ih =>
      cases count with
      | zero => exact ⟨_, rfl⟩
      | succ count =>
          obtain ⟨left, reads⟩ := ih count (by simpa using short)
          exact ⟨left, by simpa [Decoder.step, within] using reads⟩

theorem decodeOnto_encode (text : String) (char : Char) (bytes : List UInt8) :
    decodeOnto text (utf8EncodeChar char ++ bytes) = decodeOnto (text.push char) bytes := by
  have spelled := encode_spelled char
  generalize utf8EncodeChar char = front at spelled
  unfold decodeOnto
  rw [List.foldl_append]
  cases spelled with
  | alone byte whole => simp [Decoder.step, Decoder.stepLead, whole]
  | begun byte rest begun starts completes =>
      have reads := completes.foldl_step text
      rw [Char.ofNat_toNat] at reads
      simp [Decoder.step, Decoder.stepLead, starts, reads]

theorem decodeOnto_take (text : String) (char : Char) (count : Nat) (some : 0 < count)
    (short : count < char.utf8Size) :
    decodeOnto text ((utf8EncodeChar char).take count) = text.push replacement := by
  rw [← String.length_utf8EncodeChar] at short
  have spelled := encode_spelled char
  generalize utf8EncodeChar char = front at spelled short
  obtain ⟨count, rfl⟩ := Nat.exists_eq_succ_of_ne_zero (Nat.ne_of_gt some)
  unfold decodeOnto
  cases spelled with
  | alone byte whole => simp at short
  | begun byte rest begun starts completes =>
      obtain ⟨left, reads⟩ := completes.foldl_take text count (by simpa using short)
      simp [Decoder.step, Decoder.stepLead, starts, reads, Decoder.finish]

theorem decodeOnto_trails (text : String) (trails bytes : List UInt8) (all : ∀ byte ∈ trails, IsTrail byte) :
    decodeOnto text (trails ++ bytes) =
      decodeOnto (text ++ String.ofList (List.replicate trails.length replacement)) bytes := by
  induction trails generalizing text with
  | nil => simp
  | cons byte rest ih =>
      obtain ⟨trail, others⟩ := List.forall_mem_cons.mp all
      have stray : Decoder.step { text } byte = { text := text.push replacement } := by
        simp [Decoder.step, Decoder.stepLead, lead_trail trail.1 trail.2]
      have onward := ih (text.push replacement) others
      rw [push_append_ofList, ← List.replicate_succ] at onward
      unfold decodeOnto at onward ⊢
      rw [List.cons_append, List.foldl_cons, stray, onward, List.length_cons]

end Reading

theorem isTrail_of_drop (char : Char) (count : Nat) (some : 0 < count) :
    ∀ byte ∈ (utf8EncodeChar char).drop count, IsTrail byte := by
  intro byte listed
  have spelled := encode_spelled char
  generalize utf8EncodeChar char = front at spelled listed
  obtain ⟨count, rfl⟩ := Nat.exists_eq_succ_of_ne_zero (Nat.ne_of_gt some)
  cases spelled with
  | alone _ _ => simp at listed
  | begun _ rest _ _ completes =>
      rw [List.drop_succ_cons] at listed
      exact completes.isTrail byte (List.mem_of_mem_drop listed)

/-- The bytes of a row of characters. -/
def encode (chars : List Char) : List UInt8 :=
  chars.flatMap utf8EncodeChar

theorem decodeOnto_encode_all (text : String) (chars : List Char) :
    decodeOnto text (encode chars) = text ++ String.ofList chars := by
  induction chars generalizing text with
  | nil => simp [encode, decodeOnto, Decoder.finish]
  | cons char rest ih =>
      rw [encode, List.flatMap_cons, decodeOnto_encode, ← encode, ih, push_append_ofList]

theorem toUTF8_eq_encode (text : String) : text.toUTF8.data.toList = encode text.toList := by
  have same : text.toUTF8 = (String.ofList text.toList).toUTF8 := by rw [String.ofList_toList]
  rw [same, String.toUTF8_eq_toByteArray, String.toByteArray_ofList, List.utf8Encode, List.data_toByteArray]
  rfl

/-- Decoding what was encoded gives the text back. -/
theorem decode_toUTF8 (text : String) : decode text.toUTF8.data.toList = text := by
  have reads := decodeOnto_encode_all "" text.toList
  rw [String.ofList_toList, String.empty_append] at reads
  rw [toUTF8_eq_encode]
  exact reads

/-- The characters of a text, each with the position of its first byte. -/
def placed (first : Nat) : List Char → List (Nat × Char)
  | [] => []
  | char :: rest => (first, char) :: placed (first + char.utf8Size) rest

theorem le_of_mem_placed (first : Nat) (chars : List Char) :
    ∀ entry ∈ placed first chars, first ≤ entry.1 := by
  induction chars generalizing first with
  | nil => simp [placed]
  | cons char rest ih =>
      refine List.forall_mem_cons.mpr ⟨Nat.le_refl first, ?_⟩
      intro entry listed
      exact Nat.le_trans (Nat.le_add_right _ _) (ih _ entry listed)

section Ranges

variable (start stop : Nat)

/-- How many bytes of a range continue a character that begins before the range. -/
def carried (chars : List (Nat × Char)) : Nat :=
  (List.range' start (stop - start)).countP fun byte =>
    chars.any fun (first, char) => first < start ∧ byte < first + char.utf8Size

/-- The characters that lie wholly inside a range. -/
def inside (chars : List (Nat × Char)) : List Char :=
  chars.filterMap fun (first, char) =>
    if start ≤ first ∧ first + char.utf8Size ≤ stop then some char else none

/-- Whether a range ends inside a character that begins in it. -/
def endsInside (chars : List (Nat × Char)) : Bool :=
  chars.any fun (first, char) => start ≤ first ∧ first < stop ∧ stop < first + char.utf8Size

/-- The text of a range: a replacement for each byte that continues a character begun before it, the
characters wholly inside it, and a replacement for a character that its end cuts off. -/
def excerpt (chars : List (Nat × Char)) : List Char :=
  List.replicate (carried start stop chars) replacement ++ inside start stop chars ++
    if endsInside start stop chars then [replacement] else []

end Ranges

theorem countP_lt_range' (start count bound : Nat) :
    (List.range' start count).countP (· < bound) = min count (bound - start) := by
  induction count generalizing start with
  | zero => simp
  | succ count ih =>
      rw [List.range'_succ, List.countP_cons, ih]
      by_cases below : start < bound <;> simp [below] <;> omega

section Excerpts

variable {start stop first : Nat} {char : Char} {chars : List (Nat × Char)}

theorem inside_cons : inside start stop ((first, char) :: chars) =
    if start ≤ first ∧ first + char.utf8Size ≤ stop then char :: inside start stop chars
    else inside start stop chars := by
  by_cases whole : start ≤ first ∧ first + char.utf8Size ≤ stop <;> simp [inside, whole]

theorem endsInside_cons : endsInside start stop ((first, char) :: chars) =
    (decide (start ≤ first ∧ first < stop ∧ stop < first + char.utf8Size) || endsInside start stop chars) :=
  rfl

theorem carried_eq_zero (late : ∀ entry ∈ chars, start ≤ entry.1) : carried start stop chars = 0 := by
  rw [carried, List.countP_eq_zero]
  intro byte _ found
  obtain ⟨entry, listed, continues⟩ := List.any_eq_true.mp found
  have after := late entry listed
  have before := (of_decide_eq_true continues).1
  omega

theorem carried_cons (late : ∀ entry ∈ chars, start ≤ entry.1) :
    carried start stop ((first, char) :: chars) =
      if first < start then min (stop - start) (first + char.utf8Size - start) else 0 := by
  split
  · next before =>
      rw [← countP_lt_range', carried]
      apply List.countP_congr
      intro byte _
      have others : (chars.any fun (first, char) => first < start ∧ byte < first + char.utf8Size) = false := by
        rw [List.any_eq_false]
        intro entry listed continues
        have after := late entry listed
        have early := (of_decide_eq_true continues).1
        omega
      rw [List.any_cons, others]
      simp [before]
  · next after =>
      apply carried_eq_zero
      exact List.forall_mem_cons.mpr ⟨Nat.le_of_not_lt after, late⟩

theorem excerpt_apart (apart : first + char.utf8Size ≤ start ∨ stop ≤ first ∨ stop ≤ start) :
    excerpt start stop ((first, char) :: chars) = excerpt start stop chars := by
  have size := char.utf8Size_pos
  have bytes : carried start stop ((first, char) :: chars) = carried start stop chars := by
    apply List.countP_congr
    intro byte listed
    have bounds := List.mem_range'_1.mp listed
    have none : ¬ (first < start ∧ byte < first + char.utf8Size) := by omega
    simp only [List.any_cons, decide_eq_false none, Bool.false_or]
  have whole : ¬ (start ≤ first ∧ first + char.utf8Size ≤ stop) := by omega
  have cut : ¬ (start ≤ first ∧ first < stop ∧ stop < first + char.utf8Size) := by omega
  rw [excerpt, bytes, inside_cons, if_neg whole, endsInside_cons, decide_eq_false cut, Bool.false_or, excerpt]

theorem excerpt_carried (before : first < start) (late : ∀ entry ∈ chars, start ≤ entry.1) :
    excerpt start stop ((first, char) :: chars) =
      List.replicate (min (stop - start) (first + char.utf8Size - start)) replacement ++
        excerpt start stop chars := by
  have whole : ¬ (start ≤ first ∧ first + char.utf8Size ≤ stop) := by omega
  have cut : ¬ (start ≤ first ∧ first < stop ∧ stop < first + char.utf8Size) := by omega
  rw [excerpt, carried_cons late, if_pos before, inside_cons, if_neg whole, endsInside_cons,
    decide_eq_false cut, Bool.false_or, excerpt, carried_eq_zero late]
  simp

theorem excerpt_inside (after : start ≤ first) (fits : first + char.utf8Size ≤ stop)
    (late : ∀ entry ∈ chars, start ≤ entry.1) :
    excerpt start stop ((first, char) :: chars) = char :: excerpt start stop chars := by
  have cut : ¬ (start ≤ first ∧ first < stop ∧ stop < first + char.utf8Size) := by omega
  rw [excerpt, carried_cons late, if_neg (by omega), inside_cons, if_pos ⟨after, fits⟩, endsInside_cons,
    decide_eq_false cut, Bool.false_or, excerpt, carried_eq_zero late]
  simp

theorem excerpt_cut (after : start ≤ first) (begins : first < stop) (ends : stop < first + char.utf8Size)
    (late : ∀ entry ∈ chars, stop ≤ entry.1) :
    excerpt start stop ((first, char) :: chars) = [replacement] := by
  have whole : ¬ (start ≤ first ∧ first + char.utf8Size ≤ stop) := by omega
  have nothing : inside start stop chars = [] := by
    rw [inside, List.filterMap_eq_nil_iff]
    intro entry listed
    have size := entry.2.utf8Size_pos
    have beyond := late entry listed
    exact if_neg (by omega)
  rw [excerpt, carried_cons fun entry listed => Nat.le_trans (by omega) (late entry listed),
    if_neg (by omega), inside_cons, if_neg whole, nothing, endsInside_cons,
    decide_eq_true ⟨after, begins, ends⟩, Bool.true_or]
  rfl

end Excerpts

section Windows

variable (start stop : Nat)

/-- The bytes of a range, where the given characters begin at the given position. -/
def window (first : Nat) (chars : List Char) : List UInt8 :=
  ((encode chars).drop (start - first)).take (stop - max start first)

theorem window_cons (first : Nat) (char : Char) (rest : List Char) :
    window start stop first (char :: rest) =
      ((utf8EncodeChar char).drop (start - first)).take (stop - max start first) ++
        window start stop (first + char.utf8Size) rest := by
  have skipped : start - first - char.utf8Size = start - (first + char.utf8Size) := by omega
  have taken : stop - max start first - (char.utf8Size - (start - first)) =
      stop - max start (first + char.utf8Size) := by omega
  rw [window, encode, List.flatMap_cons, ← encode, List.drop_append, List.take_append, List.length_drop,
    String.length_utf8EncodeChar, skipped, taken, window]

/-- Reading a range of an encoded text gives the excerpt. -/
theorem decodeOnto_window (text : String) (first : Nat) (chars : List Char) :
    (decodeOnto text (window start stop first chars)).toList =
      text.toList ++ excerpt start stop (placed first chars) := by
  induction chars generalizing text first with
  | nil => simp [window, encode, decodeOnto, Decoder.finish, placed, excerpt, carried, inside, endsInside]
  | cons char rest ih =>
      have size := char.utf8Size_pos
      have length := String.length_utf8EncodeChar char
      have late := le_of_mem_placed (first + char.utf8Size) rest
      rw [window_cons, placed]
      by_cases apart : first + char.utf8Size ≤ start ∨ stop ≤ first ∨ stop ≤ start
      · have none : ((utf8EncodeChar char).drop (start - first)).take (stop - max start first) = [] := by
          apply List.eq_nil_of_length_eq_zero
          rw [List.length_take, List.length_drop]
          omega
        rw [none, List.nil_append, ih, excerpt_apart apart]
      by_cases before : first < start
      · have trails : ∀ byte ∈ ((utf8EncodeChar char).drop (start - first)).take (stop - max start first),
            IsTrail byte := fun byte listed =>
          isTrail_of_drop char (start - first) (by omega) byte (List.mem_of_mem_take listed)
        have count : min (stop - max start first) (char.utf8Size - (start - first)) =
            min (stop - start) (first + char.utf8Size - start) := by omega
        rw [decodeOnto_trails _ _ _ trails, ih, List.length_take, List.length_drop, length, count,
          excerpt_carried before fun entry listed => Nat.le_trans (by omega) (late entry listed)]
        simp
      have skipped : start - first = 0 := by omega
      have reach : max start first = first := by omega
      rw [skipped, reach, List.drop_zero]
      by_cases fits : first + char.utf8Size ≤ stop
      · rw [List.take_of_length_le (by omega), decodeOnto_encode, ih,
          excerpt_inside (by omega) fits fun entry listed => Nat.le_trans (by omega) (late entry listed)]
        simp
      · have beyond : stop - max start (first + char.utf8Size) = 0 := by omega
        rw [window, beyond, List.take_zero, List.append_nil, decodeOnto_take text char _ (by omega) (by omega),
          excerpt_cut (by omega) (by omega) (by omega) fun entry listed =>
            Nat.le_trans (by omega) (late entry listed)]
        simp

end Windows

end ScriptMetrics.Utf8
