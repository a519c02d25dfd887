import Lexicon.Proofs.Headword.Escaping
import Lexicon.Proofs.Headword.Variants

/-!
# Texts without unsorted parts

Once its unsorted parts have been left out, a text has no brace that stands for itself, and it keeps
that when white space at its ends or optional parts are left out. A text that had no such brace in
the first place stays as it is.

## Key results

- `Braceless.resolveUnsorted`: leaving out unsorted parts leaves no brace
- `Braceless.resolveUnsorted_eq`: without braces nothing is left out
- `Braceless.trim`, `Braceless.of_mem_variants`: what keeps a text free of braces
- `mem_of_mem_resolveUnsorted`, `mem_of_mem_variants`: no character is new
-/

namespace Lexicon.Headword

open Text (ofPieces pieces)

/-- No brace stands for itself. -/
structure Braceless (t : Text) : Prop where
  opening : .plain '{' ∉ t.pieces
  closing : .plain '}' ∉ t.pieces

namespace Braceless

theorem of_pieces {a t : Text} (h : Braceless t)
    (hplain : ∀ c, .plain c ∈ a.pieces → .plain c ∈ t.pieces) : Braceless a where
  opening := fun hmem => h.opening (hplain _ hmem)
  closing := fun hmem => h.closing (hplain _ hmem)

theorem of_part {a t : Text} (h : Braceless t) (ha : Text.PartOf a t) : Braceless a :=
  h.of_pieces fun _ => ha.mem

theorem trim {t : Text} (h : Braceless t) : Braceless t.trim :=
  h.of_part (Text.partOf_trim t)

end Braceless

/-! ## Unsorted parts -/

/-- Resolving unsorted parts leaves no brace that stands for itself. -/
theorem Braceless.resolveUnsorted (strip : Bool) (t : Text) : Braceless (resolveUnsorted strip t) where
  opening := (ungrouped_resolveUnsorted strip t).opening
  closing := (ungrouped_resolveUnsorted strip t).closing

private theorem mem_ofPieces_of_sublist {ps qs : List Piece} (h : ps.Sublist qs) {c : Char}
    (hc : c ∈ ofPieces ps) : c ∈ ofPieces qs := by
  obtain ⟨p, hp, hc⟩ := List.mem_flatMap.mp hc
  exact List.mem_flatMap.mpr ⟨p, h.subset hp, hc⟩

/-- Resolving unsorted parts brings no new characters. -/
theorem mem_of_mem_resolveUnsorted {strip : Bool} {t : Text} {c : Char}
    (h : c ∈ resolveUnsorted strip t) : c ∈ t := by
  rw [resolveUnsorted_eq] at h
  rw [← Text.ofPieces_pieces t]
  exact mem_ofPieces_of_sublist (keptPieces_sublist strip 0 t.pieces) h

/-- Without braces nothing is left out. -/
theorem Braceless.resolveUnsorted_eq {t : Text} (h : Braceless t) (strip : Bool) :
    Headword.resolveUnsorted strip t = t :=
  resolveUnsorted_of_ungrouped strip ⟨h.opening, h.closing⟩

/-! ## Optional parts -/

/-- A variant of a headword has no new characters. -/
theorem mem_of_mem_variants {t v : Text} {c : Char} (hv : v ∈ variants t) (h : c ∈ v) : c ∈ t := by
  obtain ⟨kept, hkept, -, rfl⟩ := Selected.of_mem_variants hv
  rw [← Text.ofPieces_pieces t]
  exact mem_ofPieces_of_sublist hkept h

/-- A variant of a headword has pieces of the headword. -/
theorem Braceless.of_mem_variants {t v : Text} (h : Braceless t) (hv : v ∈ variants t) :
    Braceless v := by
  obtain ⟨kept, hkept, -, rfl⟩ := Selected.of_mem_variants hv
  refine h.of_pieces fun c hc => ?_
  rw [Text.pieces_ofPieces hkept] at hc
  exact hkept.subset hc

end Lexicon.Headword
