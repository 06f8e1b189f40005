/-
Looking up in vocabularies. The answer of a vocabulary depends on the normal form of a text alone. The
variants of each built-in vocabulary have different normal forms, and so have the names of the
vocabularies: a text stands for a variant, or names a vocabulary, exactly when it is a spelling of it.
-/
import OccurrenceQuery.Proofs.Vocabulary.Name
import OccurrenceQuery.Vocabulary.Basic

namespace OccurrenceQuery.Vocabulary

open OccurrenceQuery.Text

variable {v : Vocabulary} {text variant a b : String}

/-! ## Any vocabulary -/

theorem lookup?_of_ne_empty (h : text ≠ "") : v.lookup? text = findByName? id v.variants text :=
  if_neg fun hempty => h (String.isEmpty_iff.1 hempty)

/-- Two spellings of a name get the same answer, unless one of them is empty. -/
theorem lookup?_congr (ha : a ≠ "") (hb : b ≠ "") (h : normalForm a = normalForm b) :
    v.lookup? a = v.lookup? b := by
  rw [lookup?_of_ne_empty ha, lookup?_of_ne_empty hb, findByName?_congr h]

theorem lookup?_eq_some_iff (hvariants : (v.variants.map normalForm).Nodup) :
    v.lookup? text = some variant ↔
      variant ∈ v.variants ∧ text ≠ "" ∧ normalForm text = normalForm variant := by
  by_cases hempty : text = ""
  · subst hempty
    simp [lookup?]
  · rw [← List.map_id v.variants] at hvariants
    rw [lookup?_of_ne_empty hempty, findByName?_eq_some_iff hvariants, id, eq_comm (a := normalForm variant)]
    simp [hempty]

/-! ## The built-in ones -/

theorem builtin_variants_differ : (builtin.all fun v => namesDiffer v.variants) = true := by
  decide +kernel

theorem nodup_variants (hv : v ∈ builtin) : (v.variants.map normalForm).Nodup :=
  nodup_of_namesDiffer (List.all_eq_true.1 builtin_variants_differ v hv)

theorem nodup_names : ((builtin.map name).map normalForm).Nodup :=
  nodup_of_namesDiffer (by decide +kernel)

theorem byName_eq_ok_iff : byName text = .ok v ↔ v ∈ builtin ∧ normalForm text = normalForm v.name := by
  have hfind : findByName? name builtin text = some v ↔ v ∈ builtin ∧ normalForm text = normalForm v.name := by
    rw [findByName?_eq_some_iff nodup_names, eq_comm (a := normalForm v.name)]
  rw [← hfind, byName]
  cases findByName? name builtin text <;> simp

/-- Loose names are well defined. A normal form is its own normal form, and respelling a text with other
separators and other cases of its letters keeps its normal form, on which alone the answer of a vocabulary
to a text depends. In a built-in vocabulary no two variants have one normal form, and a text stands for
the variant whose normal form it has; in the same way a text names a built-in vocabulary. -/
theorem loose_names_well_defined :
    (∀ s, normalForm (normalForm s) = normalForm s) ∧
    (∀ s t : String, Relation.ReflTransGen Respells s.toList t.toList → normalForm s = normalForm t) ∧
    (∀ (v : Vocabulary) (s t : String), s ≠ "" → t ≠ "" → normalForm s = normalForm t →
      v.lookup? s = v.lookup? t) ∧
    (∀ v ∈ builtin, ∀ text variant, v.lookup? text = some variant ↔
      variant ∈ v.variants ∧ text ≠ "" ∧ normalForm text = normalForm variant) ∧
    (∀ v ∈ builtin, (v.variants.map normalForm).Nodup) ∧
    ((builtin.map name).map normalForm).Nodup ∧
    ∀ text v, byName text = .ok v ↔ v ∈ builtin ∧ normalForm text = normalForm v.name := by
  refine ⟨normalForm_normalForm, fun s t h => ?_, fun v s t hs ht h => lookup?_congr hs ht h,
    fun v hv text variant => lookup?_eq_some_iff (nodup_variants hv), fun v hv => nodup_variants hv,
    nodup_names, fun text v => byName_eq_ok_iff⟩
  exact normalForm_eq_iff.2 (normalLetters_eq_of_reflTransGen h)

/-- With a ligature for two of its letters, a separator and a capital letter a variant is still found. -/
theorem loose_names_well_defined_ligature :
    typeStatus ∈ builtin ∧
    Relation.ReflTransGen Respells "plaﬆotype".toList "plaﬆo-Type".toList ∧
    typeStatus.lookup? "plaﬆotype" = some "PLASTOTYPE" ∧
    typeStatus.lookup? "plaﬆo-Type" = some "PLASTOTYPE" := by
  have hbuiltin : typeStatus ∈ builtin := by simp [builtin]
  have hinsert : Respells "plaﬆotype".toList "plaﬆo-type".toList := by
    simpa using Respells.insert "plaﬆo".toList "type".toList (c := '-') rfl
  have hupper : Respells "plaﬆo-type".toList "plaﬆo-Type".toList := by
    simpa using Respells.toUpper "plaﬆo-".toList "ype".toList 't'
  have hrespells := (Relation.ReflTransGen.single hinsert).tail hupper
  obtain ⟨-, hsame, hanswer, hfound, -⟩ := loose_names_well_defined
  have hplain := (hfound typeStatus hbuiltin "plaﬆotype" "PLASTOTYPE").2
    ⟨by simp [typeStatus], by decide, by decide⟩
  have halike := hanswer typeStatus "plaﬆotype" "plaﬆo-Type" (by decide) (by decide)
    (hsame _ _ hrespells)
  exact ⟨hbuiltin, hrespells, hplain, halike.symm.trans hplain⟩

end OccurrenceQuery.Vocabulary
