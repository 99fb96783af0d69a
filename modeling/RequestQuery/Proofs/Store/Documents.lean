/-
# Documents survive the store

A document is bound as its JSON text, and a store holds a text as octets.  Whoever reads the octets
back decodes them, decides by the first character whether the text may be a document, and reads it
as one.  Each of the three undoes what was done to the document: it comes back with its items and
members in their order, its strings character for character, and its numbers with their kinds
(`document_kept`).  Only its depth is limited.  A document that is nested more deeply is not lost,
but it comes back as its text (`toJson_encode_text`).
-/
import RequestQuery.Proofs.Json.RoundTrip
import RequestQuery.Proofs.Text.Utf8
import RequestQuery.Store.Cell

namespace RequestQuery

set_option autoImplicit false

/-- An array or an object. -/
def Json.Value.IsDocument : Json.Value → Prop
  | .array _ | .object _ => True
  | _ => False

namespace Store

variable {j : Json.Value}

theorem ofParameter_document (document : j.IsDocument) :
    Binding.ofParameter (.ofJson j) = .text j.text := by
  cases j with
  | array items => rfl
  | object members => rfl
  | null | bool | number | string => exact document.elim

theorem looksLikeDocument_text (document : j.IsDocument) :
    Cell.looksLikeDocument j.text = true := by
  rw [Cell.looksLikeDocument, Json.Value.text, String.toList_ofList]
  cases j with
  | array items => rfl
  | object members => rfl
  | null | bool | number | string => exact document.elim

/-- What a store gives back for the text of a document. -/
theorem toJson_encode_text (document : j.IsDocument) (distinct : j.Distinct)
    (doubles : j.DoublesReadBack) :
    (Cell.text (Text.Utf8.encode j.text)).toJson =
      if j.depth ≤ Json.Reader.nestingLimit then j else .string j.text := by
  rw [Cell.toJson, Text.Utf8.decodeLossy_encode, Cell.ofText,
    if_pos (looksLikeDocument_text document), Json.Value.ofText?,
    Json.Value.ofTextUpTo?_text distinct doubles]
  split <;> rfl

/-- **A document is bound as a text whose octets are read back as the document.** -/
theorem document_kept (document : j.IsDocument) (nested : j.depth ≤ 127) (distinct : j.Distinct)
    (doubles : j.DoublesReadBack) :
    ∃ s, Binding.ofParameter (.ofJson j) = .text s ∧
      (Cell.text (Text.Utf8.encode s)).toJson = j :=
  ⟨j.text, ofParameter_document document,
    (toJson_encode_text document distinct doubles).trans (if_pos nested)⟩

/-- Strings that need escapes and characters of each length, the greatest and the least integer, the
same number as an integer and as a double, and nothing at all in an array and in an object. -/
theorem document_kept_mixed :
    let j : Json.Value := .object [
      ("na\"me\\", .string "\u0001\n\x7f é 中 😀"),
      ("", .array [.ofUInt64 18446744073709551615, .ofInt64 (-9223372036854775808)]),
      ("five", .array [.ofInt64 5, .ofFloat 5, .ofFloat 1e-7]),
      ("none", .array [.array [], .object [], .null, .bool false])]
    j.IsDocument ∧ j.depth ≤ 127 ∧ j.Distinct ∧ j.DoublesReadBack ∧
      ∃ s, Binding.ofParameter (.ofJson j) = .text s ∧
        (Cell.text (Text.Utf8.encode s)).toJson = j := by
  intro j
  have nested : j.depth ≤ 127 := by decide +kernel
  have distinct : j.Distinct :=
    ⟨by decide, trivial, ⟨trivial, trivial, trivial⟩, ⟨trivial, trivial, trivial, trivial⟩,
      ⟨trivial, ⟨List.nodup_nil, trivial⟩, trivial, trivial, trivial⟩, trivial⟩
  have five : (Json.Value.ofFloat 5).DoublesReadBack :=
    .ofFloat (by decide +kernel) (by decide +kernel)
  have tiny : (Json.Value.ofFloat 1e-7).DoublesReadBack :=
    .ofFloat (by decide +kernel) (by decide +kernel)
  have doubles : j.DoublesReadBack :=
    ⟨trivial, ⟨trivial, trivial, trivial⟩, ⟨trivial, five, tiny, trivial⟩,
      ⟨trivial, trivial, trivial, trivial, trivial⟩, trivial⟩
  exact ⟨trivial, nested, distinct, doubles, document_kept trivial nested distinct doubles⟩

end Store

end RequestQuery
