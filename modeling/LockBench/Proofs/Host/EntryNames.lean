import LockBench.Host.EntryName
import LockBench.Proofs.Text.ByteOrder
import Mathlib.Data.List.Sort

/-!
# The order of entry names

Names are told apart by their bytes, and they are in the order of these.  Names
that are texts are in the order of the texts.
-/

namespace LockBench
namespace EntryName

/-- No two names have the same bytes. -/
theorem bytes_injective : Function.Injective bytes := by
  have decodes : ∀ name : String,
      String.fromUTF8? (Text.bytes name).toByteArray = some name := by
    intro name
    have bytes_eq : (Text.bytes name).toByteArray = name.toByteArray :=
      ByteArray.ext (List.data_toByteArray.trans Array.toArray_toList)
    rw [bytes_eq, Text.fromUTF8?_toByteArray]
  have text_ne_raw : ∀ (name : String) (raw : RawName),
      Text.bytes name ≠ raw.bytes := by
    intro name raw same
    have notText := raw.notText
    rw [← same, decodes] at notText
    cases notText
  intro name other same
  cases name with
  | text name =>
      cases other with
      | text other =>
          have decoded := decodes name
          rw [show Text.bytes name = Text.bytes other from same, decodes,
            Option.some.injEq] at decoded
          rw [decoded]
      | raw other => exact absurd same (text_ne_raw name other)
  | raw name =>
      cases other with
      | text other => exact absurd same.symm (text_ne_raw other name)
      | raw other =>
          obtain ⟨_, _⟩ := name
          obtain ⟨_, _⟩ := other
          cases same
          rfl

instance : Std.Total (α := EntryName) (· ≤ ·) where
  total name other := List.le_total name.bytes other.bytes

instance : IsTrans EntryName (· ≤ ·) where
  trans _ _ _ := List.le_trans

instance : Std.Antisymm (α := EntryName) (· ≤ ·) where
  antisymm _ _ le ge := bytes_injective (List.le_antisymm le ge)

theorem lt_of_le_of_ne
    {name other : EntryName}
    (le : name ≤ other)
    (different : name ≠ other) : name < other :=
  Std.lt_of_le_of_ne (α := List UInt8) le (bytes_injective.ne different)

theorem text_lt_text_iff (name other : String) :
    EntryName.text name < .text other ↔ name < other :=
  Text.bytes_lt_bytes_iff name other

theorem text_le_text_iff (name other : String) :
    EntryName.text name ≤ .text other ↔ name ≤ other := by
  rw [← not_lt, ← text_lt_text_iff]
  exact List.not_lt.symm

/-- Sorting names that are different gives them in ascending order. -/
theorem pairwise_lt_mergeSort
    {names : List EntryName}
    (nodup : names.Nodup) :
    (names.mergeSort (· ≤ ·)).Pairwise (· < ·) := by
  have sorted : (names.mergeSort (· ≤ ·)).Pairwise (· ≤ ·) :=
    List.pairwise_mergeSort' (· ≤ ·) names
  have different : (names.mergeSort (· ≤ ·)).Nodup :=
    (List.mergeSort_perm names _).nodup_iff.mpr nodup
  exact sorted.imp₂ (fun _ _ => lt_of_le_of_ne) different

end EntryName
end LockBench
