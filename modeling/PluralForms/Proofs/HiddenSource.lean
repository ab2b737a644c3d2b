import Mathlib.Data.List.Basic
import PluralForms.Diagnostic.Layout

/-!
# What a sanitizing style hides

Two diagnostics that differ in the rule alone look the same in a sanitized report and on a sanitized
line.  A sanitized object still has the rule as a member, cut to the limit, and a JSON string tells
its text, so there they look the same just when the cut texts do.
-/

namespace PluralForms

namespace Text.Json

/-! ## A JSON string tells its text -/

def escaped : List Char :=
  '"' :: '\\' :: (List.range 0x20).map Char.ofNat

theorem escapeChar_of_not_mem {c : Char} (h : c ∉ escaped) : escapeChar c = [c] ∧ c ≠ '\\' := by
  have hcontrol : ¬c.toNat < 0x20 := by
    intro hlt
    refine h (List.mem_cons_of_mem _ (List.mem_cons_of_mem _ ?_))
    exact List.mem_map.mpr ⟨c.toNat, List.mem_range.mpr hlt, Char.ofNat_toNat c⟩
  have hother : ∀ {d : Char}, d ∈ escaped → c ≠ d := by
    intro d hd heq
    exact h (heq ▸ hd)
  have hquote : c ≠ '"' := hother (by decide)
  have hslash : c ≠ '\\' := hother (by decide)
  refine ⟨?_, hslash⟩
  simp only [escapeChar, if_neg hquote, if_neg hslash, if_neg hcontrol,
    if_neg (show c ≠ '\n' from hother (by decide)), if_neg (show c ≠ '\r' from hother (by decide)),
    if_neg (show c ≠ '\t' from hother (by decide)),
    if_neg (show c ≠ '\x08' from hother (by decide)),
    if_neg (show c ≠ '\x0c' from hother (by decide))]

theorem escapeChar_eq_cons_of_mem {c : Char} (h : c ∈ escaped) :
    ∃ code, escapeChar c = '\\' :: code := by
  have hall : (escaped.all fun d => (escapeChar d).head? == some '\\') = true := by
    decide +kernel
  have hhead : (escapeChar c).head? = some '\\' := eq_of_beq (List.all_eq_true.mp hall c h)
  exact ⟨(escapeChar c).tail, List.eq_cons_of_mem_head? hhead⟩

/-- No character is written by the beginning of what writes another. -/
theorem eq_of_escapeChar_begins {c d : Char} (h : escapeChar c <+: escapeChar d) : c = d := by
  have htable : (escaped.all fun a => escaped.all fun b =>
      !(escapeChar a).isPrefixOf (escapeChar b) || a == b) = true := by
    decide +kernel
  by_cases hc : c ∈ escaped
  · by_cases hd : d ∈ escaped
    · have hpair := List.all_eq_true.mp (List.all_eq_true.mp htable c hc) d hd
      rw [List.isPrefixOf_iff_prefix.mpr h, Bool.not_true, Bool.false_or] at hpair
      exact eq_of_beq hpair
    · obtain ⟨code, hcode⟩ := escapeChar_eq_cons_of_mem hc
      obtain ⟨hplain, hne⟩ := escapeChar_of_not_mem hd
      rw [hcode, hplain, List.cons_prefix_cons] at h
      exact absurd h.1.symm hne
  · obtain ⟨hplain, hne⟩ := escapeChar_of_not_mem hc
    by_cases hd : d ∈ escaped
    · obtain ⟨code, hcode⟩ := escapeChar_eq_cons_of_mem hd
      rw [hcode, hplain, List.cons_prefix_cons] at h
      exact absurd h.1 hne
    · rw [hplain, (escapeChar_of_not_mem hd).1, List.cons_prefix_cons] at h
      exact h.1

theorem escapeChar_ne_nil (c : Char) : escapeChar c ≠ [] := by
  by_cases hc : c ∈ escaped
  · obtain ⟨code, hcode⟩ := escapeChar_eq_cons_of_mem hc
    simp [hcode]
  · simp [(escapeChar_of_not_mem hc).1]

theorem flatMap_escapeChar_inj {s t : List Char}
    (h : s.flatMap escapeChar = t.flatMap escapeChar) : s = t := by
  induction s generalizing t with
  | nil =>
      cases t with
      | nil => rfl
      | cons d rest => simp [escapeChar_ne_nil] at h
  | cons c chars ih =>
      cases t with
      | nil => simp [escapeChar_ne_nil] at h
      | cons d rest =>
          rw [List.flatMap_cons, List.flatMap_cons] at h
          -- Both codes stand in front of the same text, so one of them begins with the other.
          have hc : escapeChar c <+: escapeChar c ++ chars.flatMap escapeChar :=
            List.prefix_append _ _
          have hd : escapeChar d <+: escapeChar c ++ chars.flatMap escapeChar :=
            h ▸ List.prefix_append _ _
          have heq : c = d := by
            rcases List.prefix_or_prefix_of_prefix hc hd with hbegins | hbegins
            · exact eq_of_escapeChar_begins hbegins
            · exact (eq_of_escapeChar_begins hbegins).symm
          subst heq
          rw [ih (List.append_cancel_left h)]

theorem string_inj {s t : String} : string s = string t ↔ s = t := by
  constructor
  · intro h
    have hchars := String.ofList_injective h
    rw [List.cons_append, List.cons_append, List.cons.injEq] at hchars
    exact String.toList_inj.mp (flatMap_escapeChar_inj (List.append_cancel_right hchars.2))
  · intro h
    rw [h]

/-- Of texts that are put together, one can be told from the whole and the others. -/
theorem intercalate_replace_inj {mark x y : String} (front back : List String) :
    mark.intercalate (front ++ x :: back) = mark.intercalate (front ++ y :: back) ↔ x = y := by
  induction front with
  | nil =>
      cases back with
      | nil => simp
      | cons z others =>
          simp [String.intercalate_cons_cons, String.append_left_inj]
  | cons z others ih =>
      rw [List.cons_append, List.cons_append, String.intercalate_cons_of_ne_nil (by simp),
        String.intercalate_cons_of_ne_nil (by simp), String.append_right_inj, ih]

theorem object_replace_inj {name s t : String} (front back : List (String × Value)) :
    object (front ++ (name, .text s) :: back) = object (front ++ (name, .text t) :: back) ↔
      s = t := by
  simp only [object, List.map_append, List.map_cons, String.append_left_inj,
    String.append_right_inj, intercalate_replace_inj, Value.render, string_inj]

end Text.Json

namespace Style

variable {style : Style} {d : Diagnostic} {s t : String}

/-! ## Layouts -/

theorem reportLines_of_sanitize (hsanitize : style.sanitize = true) :
    style.reportLines { d with source := some s } =
      style.reportLines { d with source := none } := by
  cases hspan : d.span with
  | none => simp [reportLines, headline, placeLines]
  | some span => simp [reportLines, headline, placeLines, hsanitize]

theorem exists_members_eq (style : Style) (d : Diagnostic) :
    ∃ front back, ∀ s, style.members { d with source := some s } =
      front ++ ("source", .text (style.clean s)) :: back := by
  refine ⟨style.members { d with source := none, hint := none, helpUrl := none },
    (present? d.hint).toList.map (fun hint => ("hint", .text (style.clean hint))) ++
      (present? d.helpUrl).toList.map (fun url => ("help_url", .text url)), ?_⟩
  intro s
  simp [members, present?]

theorem object_members_inj :
    Text.Json.object (style.members { d with source := some s }) =
        Text.Json.object (style.members { d with source := some t }) ↔
      style.clean s = style.clean t := by
  obtain ⟨front, back, hmembers⟩ := exists_members_eq style d
  rw [hmembers, hmembers, Text.Json.object_replace_inj]

/-- A sanitized report and a sanitized line are the same whatever the rule; sanitized objects are
the same just when the cut texts of the two rules are. -/
theorem format_eq_iff_of_sanitize (style : Style) (hsanitize : style.sanitize = true)
    (d : Diagnostic) (s t : String) :
    style.format { d with source := some s } = style.format { d with source := some t } ↔
      (style.layout = .object → style.clean s = style.clean t) := by
  cases hlayout : style.layout with
  | report => simp [format, hlayout, reportLines_of_sanitize hsanitize]
  | oneLine => simp [format, hlayout]
  | object => simp [format, hlayout, object_members_inj]

def endOfRule : Diagnostic where
  code := .unexpectedEnd
  message := "Unexpected end of rule at position 4"

/-- Cut to three characters, two rules with the same beginning look the same. -/
theorem format_eq_of_three_chars :
    let style : Style := { layout := .object, sanitize := true, limit := 3 }
    style.sanitize = true ∧
      style.format { endOfRule with source := some "n = 1" } =
        style.format { endOfRule with source := some "n = 2" } := by
  refine ⟨rfl, ?_⟩
  refine (format_eq_iff_of_sanitize _ rfl endOfRule "n = 1" "n = 2").mpr ?_
  intro _
  decide +kernel

/-- Within the limit the object shows the whole rule. -/
theorem format_object_ne :
    let style : Style := { layout := .object, sanitize := true }
    style.sanitize = true ∧
      style.format { endOfRule with source := some "n = 1" } ≠
        style.format { endOfRule with source := some "n = 2" } := by
  decide +kernel

end Style

end PluralForms
