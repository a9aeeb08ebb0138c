import ScriptMetrics.Log.Event
import ScriptMetrics.Proofs.Association
import ScriptMetrics.Proofs.Legibility

/-!
What a log line says. No two values have the same text as JSON: characters are escaped so that they can be told
apart, and the end of a value can be told from what stands after it. So a line says what its event was,
and lines that are written one after another say what their events were, in order.
-/

namespace ScriptMetrics

section Characters

/-- The number that some hexadecimal digits stand for. -/
def hexValue (digits : List Char) : Nat :=
  digits.foldl (fun value digit => 16 * value + "0123456789abcdef".toList.idxOf digit) 0

theorem hexValue_toDigits (value : Nat) : hexValue (Nat.toDigits 16 value) = value := by
  have single : ∀ digit < 16, "0123456789abcdef".toList.idxOf (Nat.digitChar digit) = digit := by decide
  induction value using Nat.strongRecOn with
  | ind value ih =>
      by_cases small : value < 16
      · rw [Nat.toDigits_of_lt_base small]
        exact (Nat.zero_add _).trans (single value small)
      · have front := ih (value / 16) (by omega)
        rw [Nat.toDigits_of_base_le (by decide) (Nat.le_of_not_lt small)]
        unfold hexValue at front ⊢
        rw [List.foldl_append, front, List.foldl_cons, List.foldl_nil, single _ (Nat.mod_lt _ (by decide))]
        omega

theorem hexValue_hex (digits value : Nat) : hexValue (Text.hex digits value).toList = value := by
  have zeros (count : Nat) (rest : List Char) : hexValue (List.replicate count '0' ++ rest) = hexValue rest := by
    induction count with
    | zero => rfl
    | succ count ih => exact ih
  rw [Text.hex, String.toList_ofList, zeros, hexValue_toDigits]

section Unit

variable {value : Nat}

theorem length_hex (small : value < 0x10000) : (Text.hex 4 value).toList.length = 4 := by
  have short : (Nat.toDigits 16 value).length ≤ 4 :=
    (Nat.length_toDigits_le_iff (by decide) (by decide)).mpr small
  simp only [Text.hex, String.toList_ofList, List.length_append, List.length_replicate]
  omega

theorem take_hex (small : value < 0x10000) (rest : List Char) :
    hexValue (((Text.hex 4 value).toList ++ rest).take 4) = value := by
  rw [List.take_left' (length_hex small), hexValue_hex]

theorem drop_hex (small : value < 0x10000) (rest : List Char) :
    ((Text.hex 4 value).toList ++ rest).drop 4 = rest :=
  List.drop_left' (length_hex small)

end Unit

/-- The characters that are escaped under a mark. -/
def marked : List (Char × Char) :=
  [('"', '"'), ('\\', '\\'), ('n', '\n'), ('r', '\r'), ('t', '\t'), ('b', '\x08'), ('f', '\x0c')]

/-- Reads a character back, with what stands after it. -/
def readChar : List Char → Option (Char × List Char)
  | '\\' :: 'u' :: rest =>
      let unit := hexValue (rest.take 4)
      let after := rest.drop 4
      if 0xD800 ≤ unit ∧ unit < 0xDC00 then
        let second := hexValue ((after.drop 2).take 4)
        some (Char.ofNat (0x10000 + (unit - 0xD800) * 0x400 + (second - 0xDC00)), after.drop 6)
      else
        some (Char.ofNat unit, after)
  | '\\' :: mark :: rest => (marked.lookup mark).map (·, rest)
  | char :: rest => some (char, rest)
  | [] => none

theorem readChar_plain {char : Char} (plain : char ≠ '\\') (rest : List Char) :
    readChar (char :: rest) = some (char, rest) := by
  rw [readChar.eq_def]
  split <;> simp_all

theorem readChar_unit {code : Nat} (small : code < 0x10000) (single : ¬ (0xD800 ≤ code ∧ code < 0xDC00))
    (rest : List Char) :
    readChar (("\\u" ++ Text.hex 4 code).toList ++ rest) = some (Char.ofNat code, rest) := by
  simp [readChar, take_hex small, drop_hex small, single]

theorem readChar_pair {high low : Nat} (front : high < 0x400) (back : low < 0x400) (rest : List Char) :
    readChar (("\\u" ++ Text.hex 4 (0xD800 + high) ++ "\\u" ++ Text.hex 4 (0xDC00 + low)).toList ++ rest) =
      some (Char.ofNat (0x10000 + high * 0x400 + low), rest) := by
  have first : 0xD800 + high < 0x10000 := by omega
  have second : 0xDC00 + low < 0x10000 := by omega
  have paired : 0xD800 ≤ 0xD800 + high ∧ 0xD800 + high < 0xDC00 := by omega
  have spelled : ("\\u" ++ Text.hex 4 (0xD800 + high) ++ "\\u" ++ Text.hex 4 (0xDC00 + low)).toList ++ rest =
      '\\' :: 'u' :: ((Text.hex 4 (0xD800 + high)).toList ++
        '\\' :: 'u' :: ((Text.hex 4 (0xDC00 + low)).toList ++ rest)) := by
    simp
  rw [spelled]
  simp only [readChar, take_hex first, drop_hex first, if_pos paired]
  simp only [List.drop_succ_cons, List.drop_zero, take_hex second, drop_hex second, Nat.add_sub_cancel_left]

theorem readChar_jsonEscape (char : Char) (rest : List Char) :
    readChar ((Value.jsonEscape char).toList ++ rest) = some (char, rest) := by
  have valid : char.toNat < 0xD800 ∨ 0xDFFF < char.toNat ∧ char.toNat < 0x110000 := char.valid
  unfold Value.jsonEscape
  simp only
  split
  · next small =>
      rw [readChar_unit small (by omega), Char.ofNat_toNat]
  · next large =>
      have code : 0x10000 + (char.toNat - 0x10000) / 0x400 * 0x400 + (char.toNat - 0x10000) % 0x400 =
          char.toNat := by omega
      rw [readChar_pair (by omega) (by omega), code, Char.ofNat_toNat]

theorem readChar_jsonChar (char : Char) (rest : List Char) :
    readChar ((Value.jsonChar char).toList ++ rest) = some (char, rest) := by
  unfold Value.jsonChar
  split
  · next same => exact same ▸ rfl
  split
  · next same => exact same ▸ rfl
  split
  · next same => exact same ▸ rfl
  split
  · next same => exact same ▸ rfl
  split
  · next same => exact same ▸ rfl
  split
  · next same => exact same ▸ rfl
  split
  · next same => exact same ▸ rfl
  split
  · next plain _ _ _ _ _ _ => simpa using readChar_plain plain rest
  · exact readChar_jsonEscape char rest

theorem jsonChar_inj {char other : Char} {rest ending : List Char}
    (same : (Value.jsonChar char).toList ++ rest = (Value.jsonChar other).toList ++ ending) :
    char = other ∧ rest = ending := by
  have read := congrArg readChar same
  rw [readChar_jsonChar, readChar_jsonChar, Option.some.injEq, Prod.mk.injEq] at read
  exact read

-- A quote that is not escaped ends a text.
theorem jsonChar_open (char : Char) (rest ending : List Char) :
    (Value.jsonChar char).toList ++ rest ≠ '"' :: ending := by
  intro same
  have read := congrArg readChar same
  rw [readChar_jsonChar, readChar_plain (by decide), Option.some.injEq, Prod.mk.injEq] at read
  rw [read.1, Value.jsonChar, if_pos rfl] at same
  cases same

end Characters

namespace Value

/-- The characters that a number is spelled with. -/
def numeric (char : Char) : Bool :=
  char.isDigit || char == '-'

/-- What may stand after a number, so that it can be told where the number ends. -/
def Ended (rest : List Char) : Prop :=
  ∀ char ∈ rest.head?, numeric char = false

theorem ended_cons {char : Char} (plain : numeric char = false) (rest : List Char) : Ended (char :: rest) := by
  intro first here
  cases here
  exact plain

theorem Ended.takeWhile {rest : List Char} (ended : Ended rest) : rest.takeWhile numeric = [] := by
  cases rest with
  | nil => rfl
  | cons char rest => rw [List.takeWhile_cons, ended char rfl, if_neg Bool.false_ne_true]

theorem toString_numeric (value : Int) : ∀ char ∈ (toString value).toList, numeric char = true := by
  intro char member
  by_contra plain
  rw [numeric, Bool.or_eq_true, not_or, Bool.not_eq_true, beq_iff_eq] at plain
  exact not_mem_toString plain.1 plain.2 value member

theorem number_inj {value other : Int} {rest ending : List Char} (ended : Ended rest) (ends : Ended ending)
    (same : (toString value).toList ++ rest = (toString other).toList ++ ending) :
    value = other ∧ rest = ending := by
  have digits := congrArg (List.takeWhile numeric) same
  rw [List.takeWhile_append_of_pos (toString_numeric value), List.takeWhile_append_of_pos (toString_numeric other),
    ended.takeWhile, ends.takeWhile, List.append_nil, List.append_nil] at digits
  rw [digits, List.append_cancel_left_eq] at same
  exact ⟨toString_inj (String.toList_inj.mp digits), same⟩

theorem jsonText_toList (text : String) : (jsonText text).toList =
    '"' :: text.toList.flatMap (fun char => (jsonChar char).toList) ++ ['"'] := by
  simp [jsonText, List.flatMap, Function.comp_def]

theorem chars_inj {chars others rest ending : List Char}
    (same : chars.flatMap (fun char => (jsonChar char).toList) ++ '"' :: rest =
      others.flatMap (fun char => (jsonChar char).toList) ++ '"' :: ending) :
    chars = others ∧ rest = ending := by
  induction chars generalizing others with
  | nil =>
      cases others with
      | nil => simpa using same
      | cons other others =>
          rw [List.flatMap_cons, List.append_assoc] at same
          exact absurd same.symm (jsonChar_open _ _ _)
  | cons char chars ih =>
      cases others with
      | nil =>
          rw [List.flatMap_cons, List.append_assoc] at same
          exact absurd same (jsonChar_open _ _ _)
      | cons other others =>
          rw [List.flatMap_cons, List.flatMap_cons, List.append_assoc, List.append_assoc] at same
          obtain ⟨rfl, later⟩ := jsonChar_inj same
          obtain ⟨rfl, rfl⟩ := ih later
          exact ⟨rfl, rfl⟩

theorem jsonText_inj {text other : String} {rest ending : List Char}
    (same : (jsonText text).toList ++ rest = (jsonText other).toList ++ ending) : text = other ∧ rest = ending := by
  simp only [jsonText_toList, List.cons_append, List.append_assoc, List.cons.injEq, true_and, List.nil_append]
    at same
  obtain ⟨chars, rests⟩ := chars_inj same
  exact ⟨String.toList_inj.mp chars, rests⟩

section Entries

variable {α : Type} {write : α → List Char}

/-- Entries after the first, each behind a comma. -/
def following (write : α → List Char) (entries : List α) : List Char :=
  entries.flatMap fun entry => ',' :: ' ' :: write entry

theorem intercalate_eq (entry : α) (entries : List α) :
    [',', ' '].intercalate ((entry :: entries).map write) = write entry ++ following write entries := by
  induction entries generalizing entry with
  | nil => simp [following]
  | cons next entries ih =>
      rw [List.map_cons, List.map_cons, List.intercalate_cons_cons, ← List.map_cons, ih]
      simp [following]

theorem ended_following {close : Char} (plain : numeric close = false) (entries : List α) (rest : List Char) :
    Ended (following write entries ++ close :: rest) := by
  cases entries with
  | nil => exact ended_cons plain rest
  | cons entry entries => exact ended_cons rfl _

variable {close : Char} {entries others : List α} {rest ending : List Char}

theorem following_inj (plain : numeric close = false) (apart : close ≠ ',')
    (each : ∀ entry ∈ entries, ∀ other rest ending, Ended rest → Ended ending →
      write entry ++ rest = write other ++ ending → entry = other ∧ rest = ending)
    (same : following write entries ++ close :: rest = following write others ++ close :: ending) :
    entries = others ∧ rest = ending := by
  induction entries generalizing others with
  | nil =>
      cases others with
      | nil => simpa [following] using same
      | cons other others => exact absurd (List.cons.inj same).1 apart
  | cons entry entries ih =>
      cases others with
      | nil => exact absurd (List.cons.inj same).1.symm apart
      | cons other others =>
          have tails : write entry ++ (following write entries ++ close :: rest) =
              write other ++ (following write others ++ close :: ending) := by
            simpa [following] using same
          obtain ⟨rfl, later⟩ := each entry List.mem_cons_self other _ _ (ended_following plain entries rest)
            (ended_following plain others ending) tails
          obtain ⟨rfl, rfl⟩ := ih (fun next member => each next (List.mem_cons_of_mem _ member)) later
          exact ⟨rfl, rfl⟩

-- No entry begins with the mark that closes them, so it can be told whether there is one.
theorem entries_inj (plain : numeric close = false) (apart : close ≠ ',')
    (begins : ∀ entry, ∃ char tail, write entry = char :: tail ∧ char ≠ close)
    (each : ∀ entry ∈ entries, ∀ other rest ending, Ended rest → Ended ending →
      write entry ++ rest = write other ++ ending → entry = other ∧ rest = ending)
    (same : [',', ' '].intercalate (entries.map write) ++ close :: rest =
      [',', ' '].intercalate (others.map write) ++ close :: ending) :
    entries = others ∧ rest = ending := by
  cases entries with
  | nil =>
      cases others with
      | nil => simpa using same
      | cons other others =>
          obtain ⟨char, tail, spelled, different⟩ := begins other
          rw [intercalate_eq, spelled] at same
          exact absurd (List.cons.inj same).1.symm different
  | cons entry entries =>
      cases others with
      | nil =>
          obtain ⟨char, tail, spelled, different⟩ := begins entry
          rw [intercalate_eq, spelled] at same
          exact absurd (List.cons.inj same).1 different
      | cons other others =>
          rw [intercalate_eq, intercalate_eq, List.append_assoc, List.append_assoc] at same
          obtain ⟨rfl, later⟩ := each entry List.mem_cons_self other _ _ (ended_following plain entries rest)
            (ended_following plain others ending) same
          obtain ⟨rfl, rfl⟩ :=
            following_inj plain apart (fun next member => each next (List.mem_cons_of_mem _ member)) later
          exact ⟨rfl, rfl⟩

end Entries

theorem jsonItems_eq (items : List Value) : jsonItems items = items.map json := by
  induction items with
  | nil => rfl
  | cons item items ih => rw [jsonItems, ih, List.map_cons]

/-- A member of an object as JSON. -/
def jsonMember (entry : String × Value) : String :=
  jsonText entry.1 ++ ": " ++ json entry.2

theorem jsonMembers_eq (members : List (String × Value)) : jsonMembers members = members.map jsonMember := by
  induction members with
  | nil => rfl
  | cons entry members ih =>
      rw [jsonMembers, ih, List.map_cons]
      rfl

theorem json_list (items : List Value) : (json (.list items)).toList =
    '[' :: ([',', ' '].intercalate (items.map fun item => (json item).toList) ++ [']']) := by
  rw [json, jsonItems_eq]
  simp [Function.comp_def]

theorem json_object (members : List (String × Value)) : (json (.object members)).toList =
    '\x7b' :: ([',', ' '].intercalate (members.map fun entry => (jsonMember entry).toList) ++ ['\x7d']) := by
  rw [json, jsonMembers_eq]
  simp [Function.comp_def]

/-- The kind of value that begins with a character. -/
def kindAt (char : Char) : Nat :=
  match char with
  | 'n' => 0
  | 't' => 1
  | 'f' => 1
  | '"' => 3
  | '[' => 4
  | '\x7b' => 5
  | _ => 2

theorem kindAt_numeric {char : Char} (numeral : numeric char = true) : kindAt char = 2 ∧ char ≠ ']' := by
  constructor
  · unfold kindAt
    split <;> first | rfl | exact absurd numeral (by decide)
  · rintro rfl
    exact absurd numeral (by decide)

theorem toString_nonempty (value : Int) : (toString value).toList ≠ [] := by
  rw [Int.toString_eq_repr, Int.repr_eq_if]
  split
  · simp
  · simp

theorem json_begins (value : Value) : ∃ char tail, (json value).toList = char :: tail ∧ kindAt char = value.ctorIdx ∧
    char ≠ ']' := by
  cases value with
  | null => exact ⟨_, _, rfl, rfl, by decide⟩
  | flag value => cases value <;> exact ⟨_, _, rfl, rfl, by decide⟩
  | number value =>
      obtain ⟨char, tail, spelled⟩ := List.exists_cons_of_ne_nil (toString_nonempty value)
      have numeral := toString_numeric value char (spelled ▸ List.mem_cons_self)
      exact ⟨char, tail, spelled, kindAt_numeric numeral⟩
  | text value => exact ⟨_, _, jsonText_toList value, rfl, by decide⟩
  | list items => exact ⟨_, _, json_list items, rfl, by decide⟩
  | object members => exact ⟨_, _, json_object members, rfl, by decide⟩

theorem kind_eq {value other : Value} {rest ending : List Char}
    (same : (json value).toList ++ rest = (json other).toList ++ ending) : value.ctorIdx = other.ctorIdx := by
  obtain ⟨char, tail, spelled, kind, _⟩ := json_begins value
  obtain ⟨first, after, written, sort, _⟩ := json_begins other
  rw [spelled, written] at same
  rw [← kind, ← sort, (List.cons.inj same).1]

theorem jsonMember_begins (entry : String × Value) :
    ∃ char tail, (jsonMember entry).toList = char :: tail ∧ char ≠ '\x7d' := by
  rw [jsonMember, String.append_assoc, String.toList_append, jsonText_toList]
  exact ⟨'"', _, rfl, by decide⟩

/-- The text of a value tells the value, and what stands after it. -/
def Told (value : Value) : Prop :=
  ∀ other rest ending, Ended rest → Ended ending →
    (json value).toList ++ rest = (json other).toList ++ ending → value = other ∧ rest = ending

theorem told_flag (value : Bool) : Told (.flag value) := by
  intro other rest ending _ _ same
  have kinds := kind_eq same
  cases other with
  | flag other =>
      cases value <;> cases other
      · exact ⟨rfl, List.append_cancel_left same⟩
      · exact absurd (List.cons.inj same).1 (by decide)
      · exact absurd (List.cons.inj same).1 (by decide)
      · exact ⟨rfl, List.append_cancel_left same⟩
  | _ => cases kinds

theorem told_list {items : List Value} (each : ∀ item ∈ items, Told item) : Told (.list items) := by
  intro other rest ending _ _ same
  have kinds := kind_eq same
  cases other with
  | list others =>
      rw [json_list, json_list, List.cons_append, List.cons_append, List.append_assoc, List.append_assoc] at same
      have begins (item : Value) : ∃ char tail, (json item).toList = char :: tail ∧ char ≠ ']' := by
        obtain ⟨char, tail, spelled, _, different⟩ := json_begins item
        exact ⟨char, tail, spelled, different⟩
      obtain ⟨rfl, rfl⟩ := entries_inj (by decide) (by decide) begins each (List.cons.inj same).2
      exact ⟨rfl, rfl⟩
  | _ => cases kinds

theorem told_object {members : List (String × Value)} (each : ∀ entry ∈ members, Told entry.2) :
    Told (.object members) := by
  intro other rest ending _ _ same
  have kinds := kind_eq same
  cases other with
  | object others =>
      rw [json_object, json_object, List.cons_append, List.cons_append, List.append_assoc, List.append_assoc] at same
      have eachMember : ∀ entry ∈ members, ∀ other rest ending, Ended rest → Ended ending →
          (jsonMember entry).toList ++ rest = (jsonMember other).toList ++ ending →
          entry = other ∧ rest = ending := by
        rintro ⟨name, value⟩ member ⟨label, other⟩ rest ending ended ends same
        simp only [jsonMember, String.toList_append, List.append_assoc] at same
        obtain ⟨rfl, after⟩ := jsonText_inj same
        obtain ⟨rfl, rfl⟩ := each _ member other rest ending ended ends (List.append_cancel_left after)
        exact ⟨rfl, rfl⟩
      obtain ⟨rfl, rfl⟩ := entries_inj (by decide) (by decide) jsonMember_begins eachMember (List.cons.inj same).2
      exact ⟨rfl, rfl⟩
  | _ => cases kinds

theorem sizeOf_member {members : List (String × Value)} {entry : String × Value} (member : entry ∈ members) :
    sizeOf entry.2 < 1 + sizeOf members := by
  have smaller := List.sizeOf_lt_of_mem member
  obtain ⟨name, value⟩ := entry
  simp only [Prod.mk.sizeOf_spec] at smaller ⊢
  omega

theorem told (value : Value) : Told value :=
  match value with
  | .null => by
      intro other rest ending _ _ same
      have kinds := kind_eq same
      cases other with
      | null => exact ⟨rfl, List.append_cancel_left same⟩
      | _ => cases kinds
  | .flag value => told_flag value
  | .number value => by
      intro other rest ending ended ends same
      have kinds := kind_eq same
      cases other with
      | number other =>
          obtain ⟨rfl, rfl⟩ := number_inj ended ends same
          exact ⟨rfl, rfl⟩
      | _ => cases kinds
  | .text value => by
      intro other rest ending _ _ same
      have kinds := kind_eq same
      cases other with
      | text other =>
          obtain ⟨rfl, rfl⟩ := jsonText_inj same
          exact ⟨rfl, rfl⟩
      | _ => cases kinds
  | .list items => told_list fun item _ => told item
  | .object members => told_object fun entry member => have := sizeOf_member member; told entry.2

end Value

section Members

variable {members : List (String × Value)} {name other : String} {value : Value}

theorem lookup_setMember (members : List (String × Value)) (name other : String) (value : Value) :
    (setMember members name value).lookup other = if other = name then some value else members.lookup other := by
  unfold setMember
  rw [any_eq_isSome_lookup]
  cases found : members.lookup name with
  | some old =>
      simp only [Option.isSome_some, ↓reduceIte]
      rw [lookup_map fun key old => if key == name then value else old]
      by_cases same : other = name
      · simp [same, found]
      · simp [same]
  | none =>
      simp only [Option.isSome_none, Bool.false_eq_true, ↓reduceIte, List.lookup_append, List.lookup_cons]
      by_cases same : other = name
      · simp [same, found]
      · simp [same, beq_eq_false_iff_ne.mpr same]

theorem lookup_setMember_self : (setMember members name value).lookup name = some value := by
  rw [lookup_setMember, if_pos rfl]

theorem lookup_setMember_other (different : other ≠ name) :
    (setMember members name value).lookup other = members.lookup other := by
  rw [lookup_setMember, if_neg different]

end Members

theorem Level.name_inj {level other : Level} (same : level.name = other.name) : level = other := by
  cases level <;> cases other <;> first | rfl | exact absurd same (by decide)

namespace Event

section Members

variable {event : Event} {timestamp : String}

theorem lookup_timestamp : (event.members timestamp).lookup "timestamp" = some (.text timestamp) :=
  lookup_setMember_self

theorem lookup_level : (event.members timestamp).lookup "level" = some (.text event.level.name) := by
  unfold members
  rw [lookup_setMember_other (by decide), lookup_setMember_self]

theorem lookup_event : (event.members timestamp).lookup "event" = some (.text event.name) := by
  unfold members
  rw [lookup_setMember_other (by decide), lookup_setMember_other (by decide), lookup_setMember_self]

theorem lookup_filled {fields start : List (String × Value)} {name : String}
    (spared : ∀ field ∈ fields, field.1 ≠ name) :
    (fields.foldl (fun members (name, value) => setMember members name value) start).lookup name =
      start.lookup name := by
  induction fields generalizing start with
  | nil => rfl
  | cons field fields ih =>
      have here := spared field List.mem_cons_self
      rw [List.foldl_cons, ih fun other member => spared other (List.mem_cons_of_mem _ member)]
      exact lookup_setMember_other here.symm

/-- Unless a field takes its place. -/
theorem lookup_component (spared : ∀ field ∈ event.fields, field.1 ≠ "component") :
    (event.members timestamp).lookup "component" = some (.text event.component) := by
  unfold members
  rw [lookup_setMember_other (by decide), lookup_setMember_other (by decide), lookup_setMember_other (by decide),
    lookup_filled spared]
  rfl

end Members

section Lines

variable {event other : Event} {now later : String}

theorem line_inj (same : event.line now = other.line later) : event.members now = other.members later := by
  have ended : Value.Ended [] := fun char here => nomatch here
  have texts : (Value.object (event.members now)).json.toList ++ [] =
      (Value.object (other.members later)).json.toList ++ [] := congrArg (·.toList ++ []) same
  exact Value.object.inj (Value.told _ _ _ _ ended ended texts).1

/-- A line tells the name and the level of its event and the time, and the component unless some field has taken
its place. -/
theorem line_tells (same : event.line now = other.line later) :
    event.name = other.name ∧ event.level = other.level ∧ now = later ∧
      ((∀ field ∈ event.fields, field.1 ≠ "component") → (∀ field ∈ other.fields, field.1 ≠ "component") →
        event.component = other.component) := by
  have members := line_inj same
  have told (name : String) := congrArg (·.lookup name) members
  have names := told "event"
  have levels := told "level"
  have times := told "timestamp"
  simp only [lookup_event, lookup_level, lookup_timestamp, Option.some.injEq, Value.text.injEq] at names levels times
  refine ⟨names, Level.name_inj levels, times, ?_⟩
  intro spared others
  have components := told "component"
  simpa only [lookup_component spared, lookup_component others, Option.some.injEq, Value.text.injEq] using components

/-- The text of some events, each with the time of its line. -/
def textOf (stamped : List (Event × String)) : String :=
  String.join (stamped.map fun line => line.1.line line.2 ++ "\n")

theorem textOf_cons (first : Event × String) (stamped : List (Event × String)) :
    (textOf (first :: stamped)).toList = (first.1.line first.2).toList ++ '\n' :: (textOf stamped).toList := by
  simp [textOf]

/-- Lines one after another tell the members of each in order. -/
theorem textOf_inj {stamped others : List (Event × String)} (same : textOf stamped = textOf others) :
    stamped.map (fun line => line.1.members line.2) = others.map fun line => line.1.members line.2 := by
  induction stamped generalizing others with
  | nil =>
      cases others with
      | nil => rfl
      | cons other others =>
          have chars := textOf_cons other others
          rw [← same] at chars
          exact absurd chars.symm (by simp [textOf])
  | cons first stamped ih =>
      cases others with
      | nil =>
          have chars := textOf_cons first stamped
          rw [same] at chars
          exact absurd chars.symm (by simp [textOf])
      | cons other others =>
          have chars := congrArg String.toList same
          rw [textOf_cons, textOf_cons] at chars
          have plain : Value.numeric '\n' = false := by decide
          obtain ⟨members, rest⟩ := Value.told (.object (first.1.members first.2)) (.object (other.1.members other.2))
            _ _ (Value.ended_cons plain _) (Value.ended_cons plain _) chars
          rw [List.map_cons, List.map_cons, Value.object.inj members, ih ?_]
          exact String.toList_inj.mp (List.cons.inj rest).2

end Lines

end Event

end ScriptMetrics
