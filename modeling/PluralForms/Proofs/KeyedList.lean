import Mathlib.Data.List.Nodup

/-!
# Lists of keys and values

Where no key occurs twice, searching for a key finds its one value, and a list that is cut in two
has each key on one side only.
-/

namespace PluralForms.KeyedList

variable {κ α : Type} {entries : List (κ × α)}

def Distinct (entries : List (κ × α)) : Prop :=
  (entries.map (·.1)).Nodup

theorem Distinct.sublist {others : List (κ × α)} (h : Distinct entries)
    (hsub : others.Sublist entries) : Distinct others :=
  List.Nodup.sublist (hsub.map _) h

theorem Distinct.value_eq (h : Distinct entries) {key : κ} {a b : α} (ha : (key, a) ∈ entries)
    (hb : (key, b) ∈ entries) : a = b :=
  congrArg (·.2) (List.inj_on_of_nodup_map h ha hb rfl)

/-- Behind a cut are the entries whose keys are not before it. -/
theorem Distinct.mem_drop_iff (h : Distinct entries) (count : Nat) {key : κ} {value : α} :
    (key, value) ∈ entries.drop count ↔
      (key, value) ∈ entries ∧ key ∉ (entries.take count).map (·.1) := by
  rw [Distinct, ← List.take_append_drop count entries, List.map_append] at h
  have hdisjoint := List.disjoint_of_nodup_append h
  constructor
  · intro hmem
    refine ⟨List.mem_of_mem_drop hmem, ?_⟩
    intro hbefore
    exact hdisjoint hbefore (List.mem_map_of_mem hmem)
  · rintro ⟨hmem, hbefore⟩
    rw [← List.take_append_drop count entries, List.mem_append] at hmem
    rcases hmem with hmem | hmem
    · exact absurd (List.mem_map_of_mem hmem) hbefore
    · exact hmem

variable [BEq κ] [LawfulBEq κ]

theorem find?_eq_none_iff {key : κ} :
    (entries.find? fun entry => entry.1 == key) = none ↔ key ∉ entries.map (·.1) := by
  rw [List.find?_eq_none, List.mem_map, not_exists]
  simp only [beq_iff_eq, not_and]

theorem Distinct.find?_eq_some_iff (h : Distinct entries) {key : κ} {value : α} :
    (entries.find? fun entry => entry.1 == key).map (·.2) = some value ↔
      (key, value) ∈ entries := by
  rw [Option.map_eq_some_iff]
  constructor
  · rintro ⟨⟨found, a⟩, hfind, rfl⟩
    have hfound : found = key := by simpa using List.find?_some hfind
    rw [← hfound]
    exact List.mem_of_find?_eq_some hfind
  · intro hmem
    cases hfind : entries.find? fun entry => entry.1 == key with
    | none => exact absurd (List.mem_map_of_mem hmem) (find?_eq_none_iff.mp hfind)
    | some entry =>
        obtain ⟨found, a⟩ := entry
        have hfound : found = key := by simpa using List.find?_some hfind
        subst hfound
        exact ⟨_, rfl, h.value_eq (List.mem_of_find?_eq_some hfind) hmem⟩

end PluralForms.KeyedList
