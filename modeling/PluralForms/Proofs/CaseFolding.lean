import Mathlib.Data.List.DropRight
import PluralForms.Locale

/-!
# Case folding keeps the shape of a code

What divides a code, its two separators and white space, folds to itself, and no other character
folds to a text with a divider in it.  So folding goes through trimming and through cutting at the
underscores, and codes with the same key have the same folded subtags.
-/

namespace PluralForms

namespace Text

/-! ## Dividers -/

/-- The separators of subtags and the white space around a code. -/
def isDivider (c : Char) : Bool :=
  c == '_' || c == '-' || isSpace c

def dividerPoints : List Nat :=
  List.range' 9 5 ++ List.range' 0x1c 5 ++ [0x2d, 0x5f, 0x85, 0xa0, 0x1680] ++
    List.range' 0x2000 11 ++ [0x2028, 0x2029, 0x202f, 0x205f, 0x3000]

theorem toNat_mem_dividerPoints {c : Char} (h : isDivider c = true) : c.toNat ∈ dividerPoints := by
  simp only [isDivider, Bool.or_eq_true, beq_iff_eq] at h
  rcases h with (rfl | rfl) | hspace
  · decide
  · decide
  · simp only [isSpace, Bool.or_eq_true, Bool.and_eq_true, decide_eq_true_eq, beq_iff_eq] at hspace
    simp only [dividerPoints, List.mem_append, List.mem_range'_1, List.mem_cons, List.not_mem_nil]
    omega

theorem mem_dividerPoints_of_ofNat {n : Nat} (h : isDivider (Char.ofNat n) = true) :
    n ∈ dividerPoints := by
  have hpoint := toNat_mem_dividerPoints h
  by_cases hvalid : n.isValidChar
  · have hpointed : (Char.ofNat n).toNat = n := by
      rw [Char.ofNat, dif_pos hvalid]
      rfl
    rwa [hpointed] at hpoint
  · rw [Char.ofNat, dif_neg hvalid] at hpoint
    exact absurd hpoint (by decide)

theorem isDivider_of_isSpace {c : Char} (h : isSpace c = true) : isDivider c = true := by
  simp [isDivider, h]

/-! ## Folding a character -/

theorem foldChar_of_isDivider {c : Char} (h : isDivider c = true) : foldChar c = [c] := by
  have hall : (dividerPoints.all fun n => foldChar (Char.ofNat n) == [Char.ofNat n]) = true := by
    decide +kernel
  have hfixed := eq_of_beq (List.all_eq_true.mp hall _ (toNat_mem_dividerPoints h))
  rwa [Char.ofNat_toNat] at hfixed

theorem toLower_of_isDivider {c : Char} (hascii : c.toNat < 0x80)
    (h : isDivider c.toLower = true) : c.toLower = c := by
  have hall : ∀ n < 0x80, isDivider (Char.ofNat n).toLower = true →
      (Char.ofNat n).toLower = Char.ofNat n := by
    decide +kernel
  have hfixed := hall c.toNat hascii
  rw [Char.ofNat_toNat] at hfixed
  exact hfixed h

theorem not_isDivider_of_expansion {expansion : Nat × List Nat} (hmem : expansion ∈ foldExpansions)
    {n : Nat} (hn : n ∈ expansion.2) : isDivider (Char.ofNat n) = false := by
  have hall : (foldExpansions.all fun e => e.2.all fun n => isDivider (Char.ofNat n) == false) =
      true := by
    decide +kernel
  exact eq_of_beq (List.all_eq_true.mp (List.all_eq_true.mp hall expansion hmem) n hn)

/-- Moved by its shift, no run comes upon a divider. -/
theorem not_isDivider_of_run {run : FoldRun} (hmem : run ∈ foldRuns) {n : Nat}
    (hcovers : run.covers n = true) : isDivider (Char.ofNat (n + run.shift).toNat) = false := by
  have hall : (foldRuns.all fun run => dividerPoints.all fun p =>
      p < run.first + run.shift || run.last + run.shift < p) = true := by
    decide +kernel
  rw [Bool.eq_false_iff]
  intro hdivider
  have hpoint := mem_dividerPoints_of_ofNat hdivider
  have hpos : (n + run.shift).toNat ≠ 0 := by
    intro hzero
    rw [hzero] at hpoint
    exact absurd hpoint (by decide)
  have houtside := List.all_eq_true.mp (List.all_eq_true.mp hall run hmem) _ hpoint
  simp only [FoldRun.covers, Bool.and_eq_true, decide_eq_true_eq] at hcovers
  rw [Bool.or_eq_true, decide_eq_true_eq, decide_eq_true_eq] at houtside
  omega

/-- The ways in which a character folds. -/
theorem foldChar_cases (c : Char) :
    (c.toNat < 0x80 ∧ foldChar c = [c.toLower]) ∨
      (∃ expansion ∈ foldExpansions, foldChar c = expansion.2.map Char.ofNat) ∨
      (∃ run ∈ foldRuns, run.covers c.toNat = true ∧
        foldChar c = [Char.ofNat (c.toNat + run.shift).toNat]) ∨
      foldChar c = [c] := by
  by_cases hascii : c.toNat < 0x80
  · exact .inl ⟨hascii, foldChar_of_ascii hascii⟩
  refine .inr ?_
  cases hexpansion : foldExpansions.find? fun e => e.1 == c.toNat with
  | some expansion =>
      refine .inl ⟨expansion, List.mem_of_find?_eq_some hexpansion, ?_⟩
      simp [foldChar, hascii, hexpansion]
  | none =>
      refine .inr ?_
      cases hrun : foldRuns.find? fun run => run.covers c.toNat with
      | some run =>
          refine .inl ⟨run, List.mem_of_find?_eq_some hrun, ?_, ?_⟩
          · simpa using List.find?_some hrun
          · simp [foldChar, hascii, hexpansion, hrun]
      | none => exact .inr (by simp [foldChar, hascii, hexpansion, hrun])

/-- A divider comes from itself only. -/
theorem eq_of_mem_foldChar {c d : Char} (hmem : d ∈ foldChar c) (hdivider : isDivider d = true) :
    d = c := by
  rcases foldChar_cases c with ⟨hascii, hfold⟩ | ⟨expansion, hexpansion, hfold⟩ |
    ⟨run, hrun, hcovers, hfold⟩ | hfold
  · rw [hfold, List.mem_singleton] at hmem
    rw [hmem] at hdivider ⊢
    exact toLower_of_isDivider hascii hdivider
  · rw [hfold] at hmem
    obtain ⟨n, hn, rfl⟩ := List.mem_map.mp hmem
    rw [not_isDivider_of_expansion hexpansion hn] at hdivider
    cases hdivider
  · rw [hfold, List.mem_singleton] at hmem
    rw [hmem, not_isDivider_of_run hrun hcovers] at hdivider
    cases hdivider
  · rwa [hfold, List.mem_singleton] at hmem

theorem foldChar_ne_nil (c : Char) : foldChar c ≠ [] := by
  have hall : (foldExpansions.all fun e => !e.2.isEmpty) = true := by
    decide +kernel
  rcases foldChar_cases c with
    ⟨-, hfold⟩ | ⟨expansion, hexpansion, hfold⟩ | ⟨_, -, -, hfold⟩ | hfold
  · simp [hfold]
  · have hne := List.all_eq_true.mp hall expansion hexpansion
    simpa [hfold] using hne
  · simp [hfold]
  · simp [hfold]

/-! ## Folding a text -/

@[simp] theorem foldChars_cons (c : Char) (text : List Char) :
    foldChars (c :: text) = foldChar c ++ foldChars text := rfl

@[simp] theorem foldChars_eq_nil_iff {text : List Char} : foldChars text = [] ↔ text = [] := by
  cases text with
  | nil => simp
  | cons c rest => simp [foldChar_ne_nil]

theorem isEmpty_foldChars (text : List Char) : (foldChars text).isEmpty = text.isEmpty := by
  rw [Bool.eq_iff_iff, List.isEmpty_iff, List.isEmpty_iff, foldChars_eq_nil_iff]

theorem dropWhile_foldChars (text : List Char) :
    (foldChars text).dropWhile isSpace = foldChars (text.dropWhile isSpace) := by
  induction text with
  | nil => rfl
  | cons c rest ih =>
      by_cases hspace : isSpace c = true
      · rw [foldChars_cons, foldChar_of_isDivider (isDivider_of_isSpace hspace),
          List.singleton_append, List.dropWhile_cons_of_pos hspace, ih,
          List.dropWhile_cons_of_pos hspace]
      · rw [List.dropWhile_cons_of_neg hspace, foldChars_cons]
        obtain ⟨d, more, hfold⟩ := List.exists_cons_of_ne_nil (foldChar_ne_nil c)
        have hd : ¬isSpace d = true := by
          intro hd
          have hmem : d ∈ foldChar c := by
            rw [hfold]
            exact List.mem_cons_self
          rw [eq_of_mem_foldChar hmem (isDivider_of_isSpace hd)] at hd
          exact hspace hd
        rw [hfold, List.cons_append, List.dropWhile_cons_of_neg hd]

theorem rdropWhile_foldChars (text : List Char) :
    (foldChars text).rdropWhile isSpace = foldChars (text.rdropWhile isSpace) := by
  induction text using List.reverseRecOn with
  | nil => rfl
  | append_singleton front c ih =>
      have hlast : foldChars [c] = foldChar c := List.append_nil _
      by_cases hspace : isSpace c = true
      · rw [foldChars_append, hlast, foldChar_of_isDivider (isDivider_of_isSpace hspace),
          List.rdropWhile_concat_pos _ _ _ hspace, ih, List.rdropWhile_concat_pos _ _ _ hspace]
      · rw [List.rdropWhile_concat_neg _ _ _ hspace, List.rdropWhile_eq_self_iff]
        intro hne hd
        have hmem : (foldChars (front ++ [c])).getLast hne ∈ foldChar c := by
          simp only [foldChars_append, hlast]
          rw [List.getLast_append_of_ne_nil _ (foldChar_ne_nil c)]
          exact List.getLast_mem _
        rw [eq_of_mem_foldChar hmem (isDivider_of_isSpace hd)] at hd
        exact hspace hd

theorem trim_eq (text : List Char) : trim text = (text.dropWhile isSpace).rdropWhile isSpace := rfl

theorem mem_of_mem_trim {text : List Char} {c : Char} (h : c ∈ trim text) : c ∈ text :=
  (List.dropWhile_sublist _).mem ((List.rdropWhile_prefix _ _).mem h)

theorem trim_foldChars (text : List Char) : trim (foldChars text) = foldChars (trim text) := by
  rw [trim_eq, trim_eq, dropWhile_foldChars, rdropWhile_foldChars]

end Text

namespace Locale

open Text

/-! ## Folding a code -/

theorem pieces_cons_of_ne {c : Char} (h : c ≠ '_') (rest : List Char) :
    pieces (c :: rest) = (pieces rest).modifyHead (c :: ·) := by
  rw [pieces, if_neg h]
  split
  · next hnil => exact absurd hnil (pieces_ne_nil rest)
  · next heq => rw [heq, List.modifyHead_cons]

theorem pieces_append_of_not_mem {front : List Char} (h : '_' ∉ front) (back : List Char) :
    pieces (front ++ back) = (pieces back).modifyHead (front ++ ·) := by
  induction front with
  | nil =>
      obtain ⟨first, others, hback⟩ := List.exists_cons_of_ne_nil (pieces_ne_nil back)
      rw [List.nil_append, hback, List.modifyHead_cons, List.nil_append]
  | cons c front ih =>
      have hc := List.ne_of_not_mem_cons h
      rw [List.cons_append, pieces_cons_of_ne hc.symm, ih (List.not_mem_of_not_mem_cons h),
        List.modifyHead_modifyHead]
      rfl

theorem pieces_foldChars (code : List Char) :
    pieces (foldChars code) = (pieces code).map foldChars := by
  induction code with
  | nil => rfl
  | cons c rest ih =>
      by_cases hc : c = '_'
      · subst hc
        have hfold : foldChar '_' = ['_'] := foldChar_of_isDivider rfl
        rw [foldChars_cons, hfold, List.singleton_append, pieces, if_pos rfl, ih, pieces,
          if_pos rfl, List.map_cons, foldChars_nil]
      · have hnot : '_' ∉ foldChar c := fun hmem => hc (eq_of_mem_foldChar hmem rfl).symm
        obtain ⟨first, others, hrest⟩ := List.exists_cons_of_ne_nil (pieces_ne_nil rest)
        rw [foldChars_cons, pieces_append_of_not_mem hnot, ih, pieces_cons_of_ne hc, hrest]
        rfl

theorem foldChars_join (parts : List (List Char)) :
    foldChars (join parts) = join (parts.map foldChars) := by
  induction parts with
  | nil => rfl
  | cons part others ih =>
      cases others with
      | nil => rfl
      | cons second more =>
          have hfold : foldChar '_' = ['_'] := foldChar_of_isDivider rfl
          simp only [join, List.map_cons, foldChars_append, foldChars_cons, hfold, ih,
            List.singleton_append]

/-! ## Keys of candidates -/

theorem mem_of_mem_pieces {code part : List Char} {c : Char} (hpart : part ∈ pieces code)
    (hc : c ∈ part) : c ∈ code := by
  rw [← join_pieces code]
  generalize pieces code = parts at hpart
  induction parts with
  | nil => cases hpart
  | cons first others ih =>
      cases others with
      | nil =>
          obtain rfl := List.mem_singleton.mp hpart
          exact hc
      | cons second more =>
          show c ∈ first ++ '_' :: join (second :: more)
          rw [List.mem_append, List.mem_cons]
          rcases List.mem_cons.mp hpart with rfl | hpart
          · exact .inl hc
          · exact .inr (.inr (ih hpart))

theorem hyphen_not_mem_normalizeChars (code : List Char) : '-' ∉ normalizeChars code := by
  intro hmem
  obtain ⟨c, -, hc⟩ := List.mem_map.mp hmem
  split at hc
  · cases hc
  · next hne => exact hne hc

theorem hyphen_not_mem_subtag {code : String} {part : List Char} (h : part ∈ subtags code) :
    '-' ∉ part := by
  intro hhyphen
  have hpart := (List.mem_filter.mp h).1
  exact hyphen_not_mem_normalizeChars _ (mem_of_mem_pieces hpart hhyphen)

theorem normalizeChars_of_not_mem {code : List Char} (h : '-' ∉ code) :
    normalizeChars code = trim code := by
  have hfixed : ∀ c ∈ trim code, (if c = '-' then '_' else c) = c := by
    intro c hc
    rw [if_neg]
    rintro rfl
    exact h (mem_of_mem_trim hc)
  rw [normalizeChars, List.map_congr_left hfixed, List.map_id']

theorem toList_key (code : String) :
    (key code).toList = foldChars (normalizeChars code.toList) := by
  simp [key, normalize, foldCase]

theorem mem_join {parts : List (List Char)} {c : Char} (h : c ∈ join parts) :
    c = '_' ∨ ∃ part ∈ parts, c ∈ part := by
  induction parts with
  | nil => cases h
  | cons part others ih =>
      cases others with
      | nil => exact .inr ⟨part, List.mem_cons_self, h⟩
      | cons second more =>
          have hmem : c ∈ part ++ '_' :: join (second :: more) := h
          rw [List.mem_append, List.mem_cons] at hmem
          rcases hmem with hc | hc | hc
          · exact .inr ⟨part, List.mem_cons_self, hc⟩
          · exact .inl hc
          · exact (ih hc).imp_right fun ⟨later, hlater, hc⟩ =>
              ⟨later, List.mem_cons_of_mem _ hlater, hc⟩

theorem hyphen_not_mem_join {parts : List (List Char)} (h : ∀ part ∈ parts, '-' ∉ part) :
    '-' ∉ join parts := by
  intro hmem
  rcases mem_join hmem with hc | ⟨part, hpart, hc⟩
  · cases hc
  · exact h part hpart hc

theorem key_join {parts : List (List Char)} (h : ∀ part ∈ parts, '-' ∉ part) :
    key (String.ofList (join parts)) = String.ofList (trim (join (parts.map foldChars))) := by
  rw [← String.toList_inj, toList_key, String.toList_ofList, String.toList_ofList,
    normalizeChars_of_not_mem (hyphen_not_mem_join h), ← trim_foldChars, foldChars_join]

def foldedSubtags (code : String) : List (List Char) :=
  (subtags code).map foldChars

theorem foldedSubtags_eq (code : String) :
    foldedSubtags code = (pieces (key code).toList).filter fun piece => !piece.isEmpty := by
  rw [foldedSubtags, subtags, toList_key, pieces_foldChars, List.filter_map]
  congr 2
  funext piece
  rw [Function.comp_apply, isEmpty_foldChars]

/-- The keys of the candidates come from the key of the code. -/
theorem map_key_chain (code : String) :
    (chain code).map key = (List.range (foldedSubtags code).length).map fun dropped =>
      String.ofList (trim (join
        ((foldedSubtags code).take ((foldedSubtags code).length - dropped)))) := by
  rw [chain, List.map_map, foldedSubtags, List.length_map]
  refine List.map_congr_left fun dropped _ => ?_
  rw [Function.comp_apply, key_join, List.map_take]
  intro part hpart
  exact hyphen_not_mem_subtag (List.mem_of_mem_take hpart)

theorem map_key_chain_congr {a b : String} (h : key a = key b) :
    (chain a).map key = (chain b).map key := by
  have hfolded : foldedSubtags a = foldedSubtags b := by
    rw [foldedSubtags_eq, foldedSubtags_eq, h]
  rw [map_key_chain, map_key_chain, hfolded]

end Locale

end PluralForms
