import Registrar.Common.StandingMatches

/-!
# Escaped terms

The filter decodes the whole text or none of it.  A term that is spelled with
percent escapes is found where the text decodes; beside a malformed escape it is
scanned as it is written.
-/

namespace Registrar

open PercentCoding

variable {nfkc : Normalization}

/-- The scan of a decoded text. -/
def scanDecoded (nfkc : Normalization) (decoded : List Char) :
    Option DisclosureCategory :=
  match nfkc decoded with
  | some composed => scanNormalized (cleaned composed)
  | none => some .secret

theorem scanForDisclosure_eq (text : String) :
    scanForDisclosure nfkc text =
      scanDecoded nfkc (decodeOnce text.toList) := by
  unfold scanForDisclosure normalizeForScan scanDecoded
  cases nfkc (decodeOnce text.toList) <;> rfl

/-- Where the scan finds a term once every well-formed escape is decoded, the
filter finds one just when the whole text decodes or a term is also there as the
text is written. -/
theorem scanForDisclosure_escaped_iff {text : String}
    (spelled : scanDecoded nfkc (decodeEach text.toList) ≠ none) :
    scanForDisclosure nfkc text ≠ none ↔
      decodeURIComponent text.toList ≠ none ∨
        scanDecoded nfkc text.toList ≠ none := by
  rw [scanForDisclosure_eq, decodeOnce_eq]
  cases isDecoded : decodeURIComponent text.toList with
  | none =>
      rw [or_iff_right (not_not_intro rfl)]
      rfl
  | some decoded =>
      have same : decodeEach text.toList = decoded :=
        decodeEachAfter_eq isDecoded
      rw [same] at spelled
      exact iff_of_true spelled (.inl (Option.some_ne_none decoded))

theorem scanForDisclosure_escaped_iff_salary :
    scanForDisclosure some "%73alary is 100%25 paid" ≠ none := by
  have spelled :
      scanDecoded some (decodeEach "%73alary is 100%25 paid".toList) ≠
        none := by
    decide +kernel
  exact (scanForDisclosure_escaped_iff spelled).mpr (.inl (by decide +kernel))

/-- One stray percent sign, and the escaped term goes unnoticed. -/
theorem strayPercent_hides :
    scanDecoded some (decodeEach "%73alary is 100% paid".toList) =
        some .compensation ∧
      scanForDisclosure some "%73alary is 100% paid" = none := by
  decide +kernel

end Registrar
