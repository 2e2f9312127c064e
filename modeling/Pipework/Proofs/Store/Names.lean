import Mathlib.Data.List.Sort
import Pipework.Proofs.Disk.Machine
import Pipework.Proofs.Named
import Pipework.Store.Folder

/-!
# The files of saved pipelines

A name and the file in which the pipeline of that name is saved determine each other:
`nameOf?_eq_some_iff`.  So the names of the saved pipelines can be read off the files of a folder
(`mergeSort_eq`).
-/

namespace Pipework

/-! ## Extensions -/

namespace Disk

lemma splitExtension_eq {file : String} {front : List (List Char)} {last : List Char}
    (h : Text.fields '.' file.toList = front ++ [last]) (hne : front ≠ []) :
    splitExtension file =
      if String.ofList (['.'].intercalate front) = "" then (file, none)
      else (String.ofList (['.'].intercalate front), some (String.ofList last)) := by
  rw [splitExtension]
  split
  case h_1 heq => exact absurd heq (Text.fields_ne_nil _ _)
  case h_2 heq =>
    rw [h] at heq
    simp [List.append_eq_singleton_iff, hne] at heq
  case h_3 =>
    rw [h, List.dropLast_concat, List.getLast?_concat]
    simp only [String.isEmpty_iff, Option.map_some]

/-- An extension is what is behind the last dot. -/
lemma splitExtension_append {stem extension : String} (hne : stem ≠ "")
    (hdot : '.' ∉ extension.toList) :
    splitExtension (stem ++ "." ++ extension) = (stem, some extension) := by
  have hlist : (stem ++ "." ++ extension).toList = stem.toList ++ '.' :: extension.toList := by simp
  have hfields : Text.fields '.' (stem ++ "." ++ extension).toList =
      Text.fields '.' stem.toList ++ [extension.toList] := by
    rw [hlist, Text.fields_append, Text.fields_eq_singleton hdot]
  rw [splitExtension_eq hfields (Text.fields_ne_nil _ _), Text.intercalate_fields,
    String.ofList_toList, String.ofList_toList, if_neg hne]

/-- A file is its name and its extension. -/
lemma eq_append_of_splitExtension {file stem extension : String}
    (h : splitExtension file = (stem, some extension)) :
    stem ≠ "" ∧ file = stem ++ "." ++ extension := by
  rcases List.eq_nil_or_concat (Text.fields '.' file.toList) with hnil | ⟨front, last, hfields⟩
  · exact absurd hnil (Text.fields_ne_nil _ _)
  · rw [List.concat_eq_append] at hfields
    by_cases hfront : front = []
    · simp [splitExtension, hfields, hfront] at h
    · rw [splitExtension_eq hfields hfront] at h
      split at h
      · cases h
      case isFalse hne =>
        obtain ⟨rfl, hlast⟩ := Prod.mk.inj h
        obtain rfl := Option.some.inj hlast
        refine ⟨hne, String.toList_injective ?_⟩
        rw [← Text.intercalate_fields '.' file.toList, hfields, Text.intercalate_concat hfront]
        simp

end Disk

/-! ## Names and files -/

namespace FolderStore

/-- The file in which the pipeline of a name is saved. -/
def fileOf (name : String) : String := name ++ ".json"

/-- A name that a pipeline can be saved under without taking the place of the history. -/
structure Admissible (name : String) : Prop where
  isName : Store.isName name = true
  ne_history : name ≠ "history"

instance (name : String) : Decidable (Admissible name) :=
  decidable_of_iff (Store.isName name = true ∧ name ≠ "history")
    ⟨fun h => ⟨h.1, h.2⟩, fun h => ⟨h.isName, h.ne_history⟩⟩

lemma fileOf_injective : Function.Injective fileOf := fun a b h => by
  simpa [fileOf] using h

lemma fileOf_eq (name : String) : fileOf name = name ++ "." ++ "json" := by
  rw [fileOf, String.append_assoc]
  rfl

lemma fileOf_history : fileOf "history" = historyFile := by decide

/-- The names of saved pipelines are those of their files, the file of the history apart. -/
lemma nameOf?_eq_some_iff {file name : String} :
    nameOf? file = some name ↔ name ≠ "" ∧ name ≠ "history" ∧ file = fileOf name := by
  have hhistory : fileOf name = historyFile ↔ name = "history" := by
    rw [← fileOf_history, fileOf_injective.eq_iff]
  constructor
  · intro h
    unfold nameOf? at h
    split at h
    case h_1 stem hsplit =>
      obtain ⟨hne, heq⟩ := Disk.eq_append_of_splitExtension hsplit
      rw [← fileOf_eq] at heq
      split at h
      · cases h
      case isFalse hother =>
        obtain rfl := Option.some.inj h
        rw [heq, hhistory] at hother
        exact ⟨hne, hother, heq⟩
    case h_2 => cases h
  · rintro ⟨hne, hother, rfl⟩
    have hsplit : Disk.splitExtension (fileOf name) = (name, some "json") := by
      rw [fileOf_eq]
      exact Disk.splitExtension_append hne (by decide)
    simp only [nameOf?, hsplit, hhistory, hother, if_false]

lemma isNameChar_of_mem {name : String} (h : Store.isName name = true) {c : Char}
    (hc : c ∈ name.toList) : Store.isNameChar c = true := by
  rw [Store.isName, Bool.and_eq_true, List.all_eq_true] at h
  exact h.2 c hc

lemma ne_empty_of_isName {name : String} (h : Store.isName name = true) : name ≠ "" := by
  rintro rfl
  exact absurd h (by decide)

open Disk.Machine (IsFileName)

lemma isFileName_of (stem : String) (hslash : '/' ∉ stem.toList) (hnull : '\x00' ∉ stem.toList) :
    IsFileName (fileOf stem) := by
  have hletter : 'j' ∈ (fileOf stem).toList := by simp [fileOf]
  refine ⟨?_, fun h => ?_, by simp [fileOf, hslash], by simp [fileOf, hnull]⟩
  · rintro (h | h) <;> rw [h] at hletter <;> exact absurd hletter (by decide)
  · rw [h] at hletter
    exact absurd hletter (by decide)

lemma isFileName_fileOf {name : String} (h : Store.isName name = true) : IsFileName (fileOf name) :=
  isFileName_of name (fun hc => absurd (isNameChar_of_mem h hc) (by decide))
    (fun hc => absurd (isNameChar_of_mem h hc) (by decide))

lemma isFileName_historyFile : IsFileName historyFile :=
  isFileName_of "history" (by decide) (by decide)

/-- The names of the saved pipelines, read off the files that hold them. -/
lemma mergeSort_eq {l names : List String} (hnodup : l.Nodup) (hsorted : names.Pairwise (· < ·))
    (h : ∀ name, name ∈ l ↔ name ∈ names) :
    (l.mergeSort fun a b => !decide (b < a)) = names := by
  have hperm : (l.mergeSort fun a b => !decide (b < a)).Perm names :=
    (List.mergeSort_perm l _).trans
      ((List.perm_ext_iff_of_nodup hnodup (hsorted.imp String.ne_of_lt)).2 h)
  have hle : ∀ a b : String, (!decide (b < a)) = true ↔ a ≤ b := fun a b => by
    rw [Bool.not_eq_true', decide_eq_false_iff_not, String.not_lt]
  have hordered : (l.mergeSort fun a b => !decide (b < a)).Pairwise (· ≤ ·) := by
    refine (List.pairwise_mergeSort (fun a b c hab hbc => ?_) (fun a b => ?_) l).imp fun {a b} =>
      (hle a b).1
    · exact (hle a c).2 (String.le_trans ((hle a b).1 hab) ((hle b c).1 hbc))
    · rw [Bool.or_eq_true, hle, hle]
      exact String.le_total a b
  exact hperm.eq_of_pairwise (fun a b _ _ => String.le_antisymm) hordered
    (hsorted.imp fun hab => String.not_lt.1 (String.lt_asymm hab))

end FolderStore

end Pipework
