/-
Loose names. The normal form of a name is a normal form already, and it does not change when separators
come or go or letters of ASCII change their case. Among names with different normal forms a text is a
spelling of at most one, so that it does not matter in which order they are tried.
-/
import OccurrenceQuery.Proofs.ByteOrder
import OccurrenceQuery.Proofs.UpperCase
import OccurrenceQuery.Text.Basic
import OccurrenceQuery.Vocabulary.Basic

namespace OccurrenceQuery.Vocabulary

open OccurrenceQuery.Text

variable {cs ds : List Char} {c d : Char} {a b text : String}

/-! ## Normal forms -/

theorem normalForm_eq_iff : normalForm a = normalForm b ↔ normalLetters a.toList = normalLetters b.toList :=
  String.ofList_inj

@[simp] theorem normalLetters_append (cs ds : List Char) :
    normalLetters (cs ++ ds) = normalLetters cs ++ normalLetters ds := by
  rw [normalLetters, List.filter_append, List.flatMap_append, normalLetters, normalLetters]

theorem normalLetters_cons_separator (hc : isSeparator c = true) :
    normalLetters (c :: cs) = normalLetters cs := by
  rw [normalLetters, List.filter_cons_of_neg (by simp [hc]), normalLetters]

theorem normalLetters_cons (hc : isSeparator c = false) :
    normalLetters (c :: cs) = upper c ++ normalLetters cs := by
  rw [normalLetters, List.filter_cons_of_pos (by simp [hc]), List.flatMap_cons, normalLetters]

theorem normalLetters_separators (hcs : ∀ c ∈ cs, isSeparator c = true) : normalLetters cs = [] := by
  rw [normalLetters, List.filter_eq_nil_iff.2 fun c hc => by simp [hcs c hc], List.flatMap_nil]

theorem isSeparator_iff : isSeparator c = true ↔ c = '.' ∨ c = ' ' ∨ c = '_' ∨ c = '-' := by
  simp [isSeparator, or_assoc]

theorem isSeparator_of_isAlpha (hc : c.isAlpha = true) : isSeparator c = false := by
  by_contra hseparator
  rcases isSeparator_iff.1 (Bool.eq_true_of_not_eq_false hseparator) with rfl | rfl | rfl | rfl <;> cases hc

theorem isSeparator_of_isCapital (hc : IsCapital c) : isSeparator c = false := by
  by_contra hseparator
  have hcapital := toNat_of_isCapital hc
  rcases isSeparator_iff.1 (Bool.eq_true_of_not_eq_false hseparator) with rfl | rfl | rfl | rfl <;>
    revert hcapital <;> decide

/-- Upper case makes no separators. -/
theorem isSeparator_of_mem_upper (hc : isSeparator c = false) (hd : d ∈ upper c) :
    isSeparator d = false := by
  rcases upper_cases c with hself | hcapital
  · rw [hself, List.mem_singleton] at hd
    rwa [hd]
  · exact isSeparator_of_isCapital (hcapital d hd)

theorem isSeparator_of_mem_normalLetters (hd : d ∈ normalLetters cs) : isSeparator d = false := by
  obtain ⟨c, hc, hd⟩ := List.mem_flatMap.1 hd
  exact isSeparator_of_mem_upper (by simpa using (List.mem_filter.1 hc).2) hd

theorem normalLetters_normalLetters (cs : List Char) :
    normalLetters (normalLetters cs) = normalLetters cs := by
  have hfilter : (normalLetters cs).filter (fun c => !isSeparator c) = normalLetters cs :=
    List.filter_eq_self.2 fun c hc => by simp [isSeparator_of_mem_normalLetters hc]
  rw [normalLetters, hfilter, normalLetters, flatMap_upper_flatMap_upper]

theorem normalForm_normalForm (name : String) : normalForm (normalForm name) = normalForm name := by
  rw [normalForm_eq_iff, normalForm, String.toList_ofList, normalLetters_normalLetters]

theorem isSeparator_toUpper (c : Char) : isSeparator c.toUpper = isSeparator c := by
  by_cases halpha : c.isAlpha = true
  · rw [isSeparator_of_isAlpha halpha, isSeparator_of_isAlpha (by rwa [Char.isAlpha_toUpper_eq_isAlpha])]
  · rw [Char.toUpper_eq_of_not_isLower fun hlower => halpha (by simp [Char.isAlpha, hlower])]

theorem normalLetters_singleton_toUpper (c : Char) : normalLetters [c.toUpper] = normalLetters [c] := by
  cases hseparator : isSeparator c with
  | true =>
    rw [normalLetters_cons_separator hseparator,
      normalLetters_cons_separator ((isSeparator_toUpper c).trans hseparator)]
  | false =>
    rw [normalLetters_cons hseparator, normalLetters_cons ((isSeparator_toUpper c).trans hseparator),
      upper_toUpper]

theorem normalLetters_singleton_toLower (c : Char) : normalLetters [c.toLower] = normalLetters [c] := by
  rw [← normalLetters_singleton_toUpper c.toLower, Char.toUpper_toLower_eq_toUpper,
    normalLetters_singleton_toUpper]

theorem normalLetters_asciiLower (cs : List Char) : normalLetters (asciiLower cs) = normalLetters cs := by
  induction cs with
  | nil => rfl
  | cons c cs ih =>
    have hsplit : asciiLower (c :: cs) = [c.toLower] ++ asciiLower cs := rfl
    rw [hsplit, normalLetters_append, normalLetters_singleton_toLower, ih, ← normalLetters_append,
      List.singleton_append]

/-- Texts that agree up to the case of ASCII letters are spellings of one name. -/
theorem normalLetters_congr (h : asciiLower cs = asciiLower ds) : normalLetters cs = normalLetters ds := by
  rw [← normalLetters_asciiLower cs, h, normalLetters_asciiLower]

/-- The normal form of a word of ASCII letters is the word in upper case. -/
theorem normalLetters_of_isAlpha (h : ∀ c ∈ cs, c.isAlpha = true) : normalLetters cs = asciiUpper cs := by
  rw [normalLetters, List.filter_eq_self.2 fun c hc => by simp [isSeparator_of_isAlpha (h c hc)],
    flatMap_upper_of_isAlpha h, asciiUpper]

/-! ## Spellings -/

/-- One text comes from another by a change that a loose name does not see: a separator comes or goes
somewhere, or an ASCII letter changes its case. -/
inductive Respells : List Char → List Char → Prop where
  | insert (before after : List Char) {c : Char} (h : isSeparator c = true) :
    Respells (before ++ after) (before ++ c :: after)
  | delete (before after : List Char) {c : Char} (h : isSeparator c = true) :
    Respells (before ++ c :: after) (before ++ after)
  | toUpper (before after : List Char) (c : Char) :
    Respells (before ++ c :: after) (before ++ c.toUpper :: after)
  | toLower (before after : List Char) (c : Char) :
    Respells (before ++ c :: after) (before ++ c.toLower :: after)

theorem Respells.normalLetters_eq (h : Respells cs ds) : normalLetters cs = normalLetters ds := by
  cases h with
  | insert before after hc | delete before after hc =>
    rw [normalLetters_append, normalLetters_append, normalLetters_cons_separator hc]
  | toUpper before after c =>
    rw [← List.singleton_append, ← List.singleton_append (l := after), normalLetters_append,
      normalLetters_append, normalLetters_append, normalLetters_append, normalLetters_singleton_toUpper]
  | toLower before after c =>
    rw [← List.singleton_append, ← List.singleton_append (l := after), normalLetters_append,
      normalLetters_append, normalLetters_append, normalLetters_append, normalLetters_singleton_toLower]

/-- However often a text is respelled, its normal form stays. -/
theorem normalLetters_eq_of_reflTransGen (h : Relation.ReflTransGen Respells cs ds) :
    normalLetters cs = normalLetters ds := by
  induction h with
  | refl => rfl
  | tail _ hstep ih => exact ih.trans hstep.normalLetters_eq

/-! ## Different names -/

section

variable {α κ : Type} [BEq κ] [LawfulBEq κ] {key : α → κ} {entries : List α} {k : κ} {e : α}

/-- Among entries with different keys the first one with a given key is the one with that key. -/
theorem find?_key_eq_some_iff (hkeys : (entries.map key).Nodup) :
    entries.find? (fun entry => key entry == k) = some e ↔ e ∈ entries ∧ key e = k := by
  constructor
  · intro hfind
    have hkey := List.find?_some hfind
    exact ⟨List.mem_of_find?_eq_some hfind, beq_iff_eq.1 hkey⟩
  · rintro ⟨hmem, rfl⟩
    cases hfind : entries.find? fun entry => key entry == key e with
    | none => exact absurd (beq_self_eq_true (key e)) (List.find?_eq_none.1 hfind e hmem)
    | some f =>
      have hsame := List.find?_some hfind
      exact congrArg some
        (List.inj_on_of_nodup_map hkeys (List.mem_of_find?_eq_some hfind) hmem (beq_iff_eq.1 hsame))

end

variable {α : Type} {name : α → String} {entries : List α} {e : α}

theorem mem_of_findByName? (h : findByName? name entries text = some e) : e ∈ entries :=
  List.mem_of_find?_eq_some (p := fun entry => normalForm (name entry) == normalForm text) h

/-- Two spellings of a name find the same entry. -/
theorem findByName?_congr (h : normalForm a = normalForm b) :
    findByName? name entries a = findByName? name entries b := by
  rw [findByName?, h, findByName?]

theorem findByName?_eq_some_iff (hnames : ((entries.map name).map normalForm).Nodup) :
    findByName? name entries text = some e ↔ e ∈ entries ∧ normalForm (name e) = normalForm text := by
  rw [List.map_map] at hnames
  exact find?_key_eq_some_iff hnames

theorem findByName?_eq_none_iff : findByName? name entries text = none ↔
    ∀ e ∈ entries, normalForm (name e) ≠ normalForm text := by
  rw [findByName?, List.find?_eq_none]
  exact forall₂_congr fun e _ => not_congr beq_iff_eq

/-! ## Telling names apart -/

/-- The code points of a text as the digits of one number. -/
def packed (cs : List Char) : Nat := cs.foldl (fun n c => 0x110000 * n + c.toNat) 0

/-- Whether no number comes twice. -/
def allDifferent : List Nat → Bool
  | [] => true
  | n :: ns => (ns.all fun m => !Nat.beq n m) && allDifferent ns

theorem nodup_of_allDifferent : ∀ {ns : List Nat}, allDifferent ns = true → ns.Nodup
  | [], _ => List.nodup_nil
  | n :: ns, h => by
    obtain ⟨hn, hns⟩ := Bool.and_eq_true_iff.1 h
    refine List.nodup_cons.2 ⟨fun hmem => ?_, nodup_of_allDifferent hns⟩
    have hself := List.all_eq_true.1 hn n hmem
    simp at hself

/-- Whether names of ASCII have different normal forms. -/
def namesDiffer (names : List String) : Bool :=
  names.all isPlain && allDifferent (names.map fun s => packed (normalLetters (plainText s)))

theorem nodup_of_namesDiffer {names : List String} (h : namesDiffer names = true) :
    (names.map normalForm).Nodup := by
  obtain ⟨hplain, hdifferent⟩ := Bool.and_eq_true_iff.1 h
  refine .of_map (fun s => packed s.toList) ?_
  have hpacked : (names.map normalForm).map (fun s => packed s.toList) =
      names.map fun s => packed (normalLetters (plainText s)) := by
    rw [List.map_map]
    refine List.map_congr_left fun s hs => ?_
    rw [Function.comp_apply, normalForm, String.toList_ofList,
      toList_eq_plainText (List.all_eq_true.1 hplain s hs)]
  rw [hpacked]
  exact nodup_of_allDifferent hdifferent

end OccurrenceQuery.Vocabulary
