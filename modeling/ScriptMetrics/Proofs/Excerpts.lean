import ScriptMetrics.Proofs.Bench
import ScriptMetrics.Proofs.Counting
import ScriptMetrics.Proofs.Decoding
import ScriptMetrics.Proofs.Numbering

/-!
The texts of nodes. Parsing a source copies onto each node whose kind keeps its text what stands in the
bytes that the node covers. Whatever range a grammar gives, the text is an excerpt of the source: exactly
the characters of the range where it covers whole ones, with replacements at its ends where it does not.
-/

namespace ScriptMetrics

namespace Utf8

theorem length_encode (text : String) : (encode text.toList).length = text.utf8ByteSize := by
  rw [← toUTF8_eq_encode]
  rfl

theorem encode_append (front back : List Char) : encode (front ++ back) = encode front ++ encode back :=
  List.flatMap_append

end Utf8

namespace Cst

open Utf8

theorem slice_eq (source : String) (start stop : Nat) :
    slice source.toUTF8 start stop = decode (((encode source.toList).drop start).take (stop - start)) := by
  rw [slice, ByteArray.data_extract, Array.toList_extract, toUTF8_eq_encode]

theorem slice_excerpt (source : String) (start stop : Nat) :
    (slice source.toUTF8 start stop).toList = excerpt start stop (placed 0 source.toList) := by
  have reads := decodeOnto_window start stop "" 0 source.toList
  rw [window, Nat.sub_zero, Nat.max_zero] at reads
  rw [slice_eq]
  exact reads

theorem slice_whole (before between after : String) :
    slice (before ++ between ++ after).toUTF8 before.utf8ByteSize
      (before.utf8ByteSize + between.utf8ByteSize) = between := by
  have cut : ((encode (before ++ between ++ after).toList).drop before.utf8ByteSize).take between.utf8ByteSize =
      encode between.toList := by
    rw [String.toList_append, String.toList_append, encode_append, encode_append, List.append_assoc,
      ← length_encode before, List.drop_left, ← length_encode between, List.take_left]
  rw [slice_eq, Nat.add_sub_cancel_left, cut, ← toUTF8_eq_encode, decode_toUTF8]

theorem slice_empty (source : String) (start stop : Nat)
    (empty : min stop source.utf8ByteSize ≤ min start source.utf8ByteSize) :
    slice source.toUTF8 start stop = "" := by
  have nothing : ((encode source.toList).drop start).take (stop - start) = [] := by
    apply List.eq_nil_of_length_eq_zero
    rw [List.length_take, List.length_drop, length_encode]
    omega
  rw [slice_eq, nothing]
  rfl

end Cst

/-- A text that stands in a range of a source. A range of whole characters has these for its text. In
general a byte that continues a character begun before the range is replaced by itself, and so is as a
whole what the end of the range cuts off. A range without bytes of the source has no text. -/
structure Quotes (source : String) (start stop : Nat) (text : String) : Prop where
  whole : ∀ before between after : String, source = before ++ between ++ after →
    start = before.utf8ByteSize → stop = before.utf8ByteSize + between.utf8ByteSize → text = between
  excerpt : text.toList = Utf8.excerpt start stop (Utf8.placed 0 source.toList)
  empty : min stop source.utf8ByteSize ≤ min start source.utf8ByteSize → text = ""

theorem Cst.slice_quotes (source : String) (start stop : Nat) :
    Quotes source start stop (Cst.slice source.toUTF8 start stop) where
  whole before between after split first last := by
    subst split first last
    exact slice_whole before between after
  excerpt := slice_excerpt source start stop
  empty := slice_empty source start stop

namespace Workbench

/-- Node text is exactly what stands in the range of the node. Once the grammar is loaded, parsing a source
gives one node for each kept part of its tree, in order, and every part of a kind that keeps its text is
quoted from the source, whatever range of bytes the grammar gives it. -/
theorem parseSource_quotes (grammar : Grammar) (source path : String) (bench ready : Workbench)
    (loaded : load bench = .ok () ready) :
    ∃ arena after, parseSource grammar source path bench = .ok arena after ∧
      List.Forall₂ (fun node part =>
          arena.StandsFor source.toUTF8 node part ∧
            (part.head.kind ∈ Cst.texts →
              ∃ text, node.text = some text ∧ Quotes source part.head.start part.head.stop text))
        arena.nodes (grammar ready.parsed.size source).tree.subtrees := by
  obtain ⟨after, parsed, _⟩ := parseSource_ok grammar source path bench ready loaded
  refine ⟨_, after, parsed, (Arena.nodes_stand _ _ _).imp ?_⟩
  intro node part stands
  refine ⟨stands, ?_⟩
  intro worded
  refine ⟨part.text source.toUTF8, ?_, Cst.slice_quotes source part.head.start part.head.stop⟩
  rw [stands.text, if_pos worded]

/-- A character of one byte, one of two and one of four. -/
def mixedWidths : String :=
  String.ofList ['a', 'é', '😀']

/-- A name over the last byte of the second character and half of the third. -/
def misalignedName : Cst :=
  .node { kind := "identifier", start := 2, stop := 5 } []

def misalignedProgram : Cst :=
  .node { kind := "program" } [misalignedName]

def misaligned : Grammar := fun _ _ =>
  ⟨misalignedProgram, false⟩

theorem misaligned_quotes :
    ∃ arena after node, parseSource misaligned mixedWidths "mixed.js" {} = .ok arena after ∧
      arena.nodes[1]? = some node ∧
      node.text = some (String.ofList [Utf8.replacement, Utf8.replacement]) := by
  obtain ⟨arena, after, parsed, each⟩ := parseSource_quotes misaligned mixedWidths "mixed.js" {} _ rfl
  rw [show (misaligned _ mixedWidths).tree.subtrees = [misalignedProgram, misalignedName] from rfl] at each
  generalize listed : arena.nodes = nodes at each
  cases each with
  | cons _ others =>
      cases others with
      | cons named none =>
          obtain ⟨text, worded, quotes⟩ := named.2 (by decide)
          cases none
          refine ⟨arena, after, _, parsed, by rw [listed]; rfl, ?_⟩
          rw [worded]
          congr 1
          apply String.ext
          rw [quotes.excerpt, mixedWidths, String.toList_ofList, String.toList_ofList]
          decide

end Workbench

end ScriptMetrics
