import ScriptMetrics.Proofs.Decoding
import ScriptMetrics.Proofs.Naming
import ScriptMetrics.Proofs.Extension
import ScriptMetrics.Proofs.Reuse
import ScriptMetrics.Proofs.Survey

/-!
Line ends of source files. The line feeds of a text may be written in three ways, each of them as one
likes; reading a file takes all of them back, so the grammar gets the text and the report is one of the
text. Whatever bytes a file has, the grammar gets a text without carriage returns that its encoding
stands for.
-/

namespace ScriptMetrics

namespace Text

/-- How a text may stand in a file. A line feed is written as it is, after a carriage return, or as a
carriage return; the last not where a line feed comes next, which would be taken as its second half. -/
inductive Written : List Char → List Char → Prop where
  | nil : Written [] []
  | char {char : Char} {source written : List Char} (plain : char ≠ '\n') (onward : Written source written) :
      Written (char :: source) (char :: written)
  | feed {source written : List Char} (onward : Written source written) :
      Written ('\n' :: source) ('\n' :: written)
  | pair {source written : List Char} (onward : Written source written) :
      Written ('\n' :: source) ('\r' :: '\n' :: written)
  | carriage {source written : List Char} (apart : written.head? ≠ some '\n')
      (onward : Written source written) : Written ('\n' :: source) ('\r' :: written)

namespace LineEnds

theorem step_plain (ends : LineEnds) (char : Char) (unreturned : char ≠ '\r') (unfed : char ≠ '\n') :
    ends.step char = { text := ends.text.push char } := by
  simp [step, unreturned, unfed]

theorem step_carriage (ends : LineEnds) : ends.step '\r' = { text := ends.text.push '\n', afterReturn := true } :=
  rfl

theorem step_feed (text : String) (afterReturn : Bool) :
    step { text, afterReturn } '\n' = { text := if afterReturn then text else text.push '\n' } := by
  cases afterReturn <;> rfl

-- After a carriage return a line feed is passed over, so none may come there that stands for itself.
theorem foldl_written {source written : List Char} (writes : Written source written) (clean : '\r' ∉ source)
    (text : String) (afterReturn : Bool) (apart : afterReturn = true → written.head? ≠ some '\n') :
    (written.foldl step { text, afterReturn }).text = text ++ String.ofList source := by
  induction writes generalizing text afterReturn with
  | nil => simp
  | char plain _ ih =>
      rw [List.mem_cons, not_or] at clean
      rw [List.foldl_cons, step_plain _ _ (Ne.symm clean.1) plain, ih clean.2 _ _ (by simp),
        Utf8.push_append_ofList]
  | feed _ ih =>
      have others := List.not_mem_of_not_mem_cons clean
      have unreturned : afterReturn = false := by simpa using apart
      rw [List.foldl_cons, step_feed, unreturned, ih others _ _ (by simp)]
      exact Utf8.push_append_ofList _ _ _
  | pair _ ih =>
      have others := List.not_mem_of_not_mem_cons clean
      rw [List.foldl_cons, step_carriage, List.foldl_cons, step_feed, ih others _ _ (by simp)]
      exact Utf8.push_append_ofList _ _ _
  | carriage next _ ih =>
      have others := List.not_mem_of_not_mem_cons clean
      rw [List.foldl_cons, step_carriage, ih others _ _ fun _ => next, Utf8.push_append_ofList]

theorem step_clean (ends : LineEnds) (char : Char) (clean : '\r' ∉ ends.text.toList) :
    '\r' ∉ (ends.step char).text.toList := by
  unfold step
  split
  · simp [clean]
  · split
    · exact clean
    · next returned _ => simp [clean, Ne.symm returned]

theorem foldl_clean (ends : LineEnds) (chars : List Char) (clean : '\r' ∉ ends.text.toList) :
    '\r' ∉ (chars.foldl step ends).text.toList := by
  induction chars generalizing ends with
  | nil => exact clean
  | cons char rest ih => exact ih (ends.step char) (ends.step_clean char clean)

end LineEnds

theorem unifyLineEnds_written (source written : String) (writes : Written source.toList written.toList)
    (clean : '\r' ∉ source.toList) : unifyLineEnds written = source := by
  have reads := LineEnds.foldl_written writes clean "" false (by simp)
  rw [String.ofList_toList, String.empty_append] at reads
  exact reads

theorem unifyLineEnds_clean (text : String) : '\r' ∉ (unifyLineEnds text).toList :=
  LineEnds.foldl_clean {} text.toList (by simp)

end Text

namespace Files

/-- The file at a path holds a text, with line ends of any kinds. -/
def Carries (files : Files) (path source : String) : Prop :=
  ∃ written : String, files.read path = .ok written.toUTF8 ∧ Text.Written source.toList written.toList

theorem readSource_ok {files : Files} {path : String} {content : ByteArray} (read : files.read path = .ok content) :
    files.readSource path = .ok (Text.unifyLineEnds (Utf8.decode content.data.toList)) := by
  rw [readSource_eq, read]
  rfl

theorem Carries.readSource {files : Files} {path source : String} (carries : files.Carries path source)
    (clean : '\r' ∉ source.toList) : files.readSource path = .ok source := by
  obtain ⟨written, read, writes⟩ := carries
  rw [readSource_ok read, Utf8.decode_toUTF8, Text.unifyLineEnds_written source written writes clean]

end Files

namespace Workbench

/-- Parsing the file at a path hands a text to the grammar, and makes an arena of what comes back. -/
def Hands (files : Files) (path text : String) : Prop :=
  ∀ grammar bench ready, load bench = .ok () ready → ∃ after,
    parseFile files grammar path bench = .ok (Arena.ofCst text.toUTF8 (grammar ready.parsed.size text).tree
      (grammar ready.parsed.size text).hasErrors) after ∧
    after.parsed = ready.parsed.push text

theorem hands_of_read {files : Files} {path text : String} (read : files.readSource path = .ok text) :
    Hands files path text := by
  intro grammar bench ready loaded
  obtain ⟨after, parsed, noted⟩ := parseSource_ok grammar text path bench ready loaded
  refine ⟨after, ?_, ?_⟩
  · rw [parseFile_ok files grammar path text read, parsed]
  · obtain ⟨events, rfl⟩ := noted
    rfl

theorem Hands.analyzeFile_ok {files : Files} {path text : String} (hands : Hands files path text)
    (grammar : Grammar) (bench ready : Workbench) (loaded : load bench = .ok () ready) (collection : Collection)
    (collected : (Arena.ofCst text.toUTF8 (grammar ready.parsed.size text).tree
      (grammar ready.parsed.size text).hasErrors).collect path = .ok collection) :
    ∃ after, analyzeFile files grammar path bench = .ok (.ofCollection collection) after := by
  obtain ⟨parsed, parse, _⟩ := hands grammar bench ready loaded
  obtain ⟨measured, measure, _⟩ := analyzeArena_ok _ path collection collected parsed
  obtain ⟨after, note, _⟩ := note_ok (fileEvent (.ofCollection collection) path) measured
  exact ⟨after, (bind_ok parse).trans ((bind_ok measure).trans (bind_ok note))⟩

/-- Line ends do not change an analysis. Files that hold one text hand just that to the grammar, whatever
line ends they have. Wherever the grammar makes the same of it they have the same report, up to the file
name; and files at one path have the same analysis in all, failures included. From a file of any bytes the
grammar gets a text without carriage returns, which decodes from its encoding. -/
theorem line_ends_unseen :
    (∀ source : String, '\r' ∉ source.toList →
      (∀ files path, files.Carries path source → Hands files path source) ∧
      (∀ parsed, ∃ report : FileReport, ∀ files path grammar bench ready, files.Carries path source →
        load bench = .ok () ready → grammar ready.parsed.size source = parsed →
        ∃ after, analyzeFile files grammar path bench = .ok (report.named path) after) ∧
      ∀ files others grammar path, files.Carries path source → others.Carries path source →
        analyzeFile files grammar path = analyzeFile others grammar path) ∧
    ∀ files path content, files.read path = .ok content → ∃ text : String, Hands files path text ∧
      '\r' ∉ text.toList ∧ Utf8.decode text.toUTF8.data.toList = text := by
  refine ⟨?_, ?_⟩
  · intro source clean
    refine ⟨?_, ?_, ?_⟩
    · intro files path carries
      exact hands_of_read (carries.readSource clean)
    · intro parsed
      obtain ⟨report, reported⟩ :=
        (Arena.ofCst_treelike source.toUTF8 parsed.tree parsed.hasErrors).exists_report
      refine ⟨report, ?_⟩
      rintro files path grammar bench ready carries loaded rfl
      obtain ⟨collection, collected, named⟩ := reported path
      rw [← named]
      exact (hands_of_read (carries.readSource clean)).analyzeFile_ok grammar bench ready loaded collection collected
    · intro files others grammar path carries likewise
      unfold analyzeFile
      rw [parseFile_ok files grammar path source (carries.readSource clean),
        parseFile_ok others grammar path source (likewise.readSource clean)]
  · intro files path content read
    exact ⟨_, hands_of_read (Files.readSource_ok read), Text.unifyLineEnds_clean _, Utf8.decode_toUTF8 _⟩

/-- A text as it is and with a line end of each kind, and bytes in which a line end cuts a character off. -/
def mixedEnds : Files where
  stored := (∅ : Std.TreeMap Place Stored)
    |>.insert ["plain.js"] (.file "a\n\n\n".toUTF8)
    |>.insert ["mixed.js"] (.file "a\r\r\n\n".toUTF8)
    |>.insert ["broken.js"] (.file ⟨#[0xC3, 0x0D, 0x0A, 0x0D]⟩)

theorem mixedEnds_read (name : String) (content : ByteArray) (tidy : Path.tidy name = [name])
    (passable : mixedEnds.Passable [] name) (sound : mixedEnds.pathFault? (Path.tidyText name) = none)
    (stored : mixedEnds.get? [name] = some (.file content)) : mixedEnds.read name = .ok content := by
  unfold Files.read
  rw [Files.resolveTidy_name rfl rfl tidy sound passable (by simp [stored]), stored]
  rfl

theorem mixedEnds_plain : mixedEnds.Carries "plain.js" "a\n\n\n" :=
  ⟨"a\n\n\n", mixedEnds_read _ _ (by decide) ⟨by decide, List.not_mem_nil, by decide⟩ (by decide) rfl,
    .char (by decide) (.feed (.feed (.feed .nil)))⟩

-- The second of two carriage returns has the line feed, and the first stands alone.
theorem mixedEnds_mixed : mixedEnds.Carries "mixed.js" "a\n\n\n" :=
  ⟨"a\r\r\n\n", mixedEnds_read _ _ (by decide) ⟨by decide, List.not_mem_nil, by decide⟩ (by decide) rfl,
    .char (by decide) (.carriage (by decide) (.pair (.feed .nil)))⟩

def oneFunction : Grammar := fun _ _ =>
  ⟨.node { kind := "program" } [.node { kind := "function_declaration" } []], false⟩

theorem mixedEnds_unseen :
    (∃ report : FileReport, ∃ after later,
      analyzeFile mixedEnds oneFunction "plain.js" {} = .ok (report.named "plain.js") after ∧
      analyzeFile mixedEnds oneFunction "mixed.js" {} = .ok (report.named "mixed.js") later) ∧
    ∃ text : String, Hands mixedEnds "broken.js" text ∧ '\r' ∉ text.toList := by
  obtain ⟨same, others⟩ := line_ends_unseen
  obtain ⟨_, reported, _⟩ := same "a\n\n\n" (by decide)
  obtain ⟨report, each⟩ := reported (oneFunction 0 "a\n\n\n")
  obtain ⟨after, plain⟩ := each mixedEnds "plain.js" oneFunction {} _ mixedEnds_plain rfl rfl
  obtain ⟨later, mixed⟩ := each mixedEnds "mixed.js" oneFunction {} _ mixedEnds_mixed rfl rfl
  obtain ⟨text, hands, clean, _⟩ :=
    others mixedEnds "broken.js" _
      (mixedEnds_read _ _ (by decide) ⟨by decide, List.not_mem_nil, by decide⟩ (by decide) rfl)
  exact ⟨⟨report, after, later, plain, mixed⟩, text, hands, clean⟩

end Workbench

end ScriptMetrics
