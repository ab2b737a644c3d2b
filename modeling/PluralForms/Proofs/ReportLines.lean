import PluralForms.Diagnostic.Layout

/-!
# Lines of a report

Escaped text is printable, and so is every part of a report but for the colours and the address of a
page.  None of these breaks a line either, so the lines can be read back from a report.
-/

namespace PluralForms

/-! ## Escapes -/

namespace Text

theorem isPrintable_hexDigit (n : Nat) : isPrintable (hexDigit n) = true := by
  have hdigits : ∀ digit < 16, isPrintable (Nat.digitChar digit) = true := by
    decide
  exact hdigits _ (Nat.mod_lt _ (by decide))

theorem isPrintable_of_mem_hexDigits {width n : Nat} {c : Char} (h : c ∈ hexDigits width n) :
    isPrintable c = true := by
  induction width generalizing n with
  | zero => cases h
  | succ width ih =>
      rcases List.mem_append.mp h with hmem | hmem
      · exact ih hmem
      · rw [List.mem_singleton.mp hmem]
        exact isPrintable_hexDigit n

/-- Behind the backslash stands a letter, and digits may follow. -/
theorem isPrintable_of_mem_code {letter d : Char} {digits : List Char}
    (hletter : isPrintable letter = true) (hdigits : ∀ c ∈ digits, isPrintable c = true)
    (h : d ∈ '\\' :: letter :: digits) : isPrintable d = true := by
  rw [List.mem_cons, List.mem_cons] at h
  rcases h with rfl | rfl | hmem
  · decide
  · exact hletter
  · exact hdigits d hmem

theorem isPrintable_of_mem_escapeCode {c d : Char} (h : d ∈ escapeCode c) :
    isPrintable d = true := by
  unfold escapeCode at h
  extract_lets n at h
  have hdigits : ∀ width, ∀ c ∈ hexDigits width n, isPrintable c = true :=
    fun _ _ => isPrintable_of_mem_hexDigits
  split at h
  · exact isPrintable_of_mem_code (by decide) (List.forall_mem_nil _) h
  split at h
  · exact isPrintable_of_mem_code (by decide) (List.forall_mem_nil _) h
  split at h
  · exact isPrintable_of_mem_code (by decide) (List.forall_mem_nil _) h
  split at h
  · exact isPrintable_of_mem_code (by decide) (hdigits 2) h
  split at h
  · exact isPrintable_of_mem_code (by decide) (hdigits 4) h
  · exact isPrintable_of_mem_code (by decide) (hdigits 8) h

theorem isPrintable_of_mem_escapeChar {c d : Char} (h : d ∈ escapeChar c) :
    isPrintable d = true := by
  unfold escapeChar at h
  split at h
  · next hprintable =>
      rw [List.mem_singleton.mp h]
      exact hprintable
  · exact isPrintable_of_mem_escapeCode h

theorem isPrintable_of_mem_escapeChars {text : List Char} {d : Char} (h : d ∈ escapeChars text) :
    isPrintable d = true := by
  obtain ⟨c, -, hd⟩ := List.mem_flatMap.mp h
  exact isPrintable_of_mem_escapeChar hd

end Text

/-! ## Lines -/

namespace Text

variable {p : Char → Prop} {front back text : String}

def MadeOf (p : Char → Prop) (text : String) : Prop :=
  ∀ c ∈ text.toList, p c

theorem MadeOf.append (hfront : MadeOf p front) (hback : MadeOf p back) :
    MadeOf p (front ++ back) := by
  intro c hc
  rw [String.toList_append, List.mem_append] at hc
  cases hc with
  | inl hc => exact hfront c hc
  | inr hc => exact hback c hc

/-- A text in which nothing has to be escaped. -/
def Printable (text : String) : Prop :=
  MadeOf (isPrintable · = true) text

instance (text : String) : Decidable (Printable text) :=
  decidable_of_iff (text.toList.all isPrintable = true) List.all_eq_true

theorem Printable.append (hfront : Printable front) (hback : Printable back) :
    Printable (front ++ back) :=
  MadeOf.append hfront hback

theorem Printable.madeOf (h : Printable text) (hp : ∀ c, isPrintable c = true → p c) :
    MadeOf p text :=
  fun c hc => hp c (h c hc)

theorem printable_escapeChars (text : List Char) :
    Printable (String.ofList (escapeChars text)) := by
  intro c hc
  rw [String.toList_ofList] at hc
  exact isPrintable_of_mem_escapeChars hc

theorem printable_toString (n : Nat) : Printable (toString n) := by
  intro c hc
  have hmem : c ∈ Nat.toDigits 10 n := by
    rw [← Nat.toList_repr]
    exact hc
  have hdigit := Nat.isDigit_of_mem_toDigits (by decide) (by decide) hmem
  simp only [Char.isDigit, Bool.and_eq_true, decide_eq_true_eq, ge_iff_le,
    UInt32.le_iff_toNat_le] at hdigit
  have hlow : 48 ≤ c.toNat := hdigit.1
  have hhigh : c.toNat ≤ 57 := hdigit.2
  exact isPrintable_of_ascii (by omega) (by omega)

end Text

namespace Style

open Text

/-- A text that breaks no line. -/
def OneLine (text : String) : Prop :=
  '\n' ∉ text.toList

instance (text : String) : Decidable (OneLine text) :=
  inferInstanceAs (Decidable (_ ∉ _))

theorem oneLine_iff {text : String} : OneLine text ↔ MadeOf (· ≠ '\n') text := by
  constructor
  · rintro h c hc rfl
    exact h hc
  · intro h hmem
    exact h '\n' hmem rfl

theorem ne_newline_of_isPrintable {c : Char} (h : isPrintable c = true) : c ≠ '\n' := by
  rintro rfl
  exact absurd h (by decide)

theorem oneLine_of_printable {text : String} (h : Printable text) : OneLine text :=
  oneLine_iff.mpr (h.madeOf fun _ => ne_newline_of_isPrintable)

theorem printable_clean (style : Style) (text : String) : Printable (style.clean text) := by
  unfold clean
  extract_lets escaped
  split
  · refine Printable.append (fun c hc => ?_) (by decide)
    rw [String.toList_ofList] at hc
    exact isPrintable_of_mem_escapeChars (List.mem_of_mem_take hc)
  · exact printable_escapeChars text.toList

theorem printable_columns {c : Char} (hc : isPrintable c = true) (count : Nat) :
    Printable (columns count c) := by
  intro d hd
  rw [columns, String.toList_ofList] at hd
  exact List.eq_of_mem_replicate hd ▸ hc

theorem printable_of_mem_echoLines {source : String} {span : Span} {line : String}
    (h : line ∈ echoLines source span) : Printable line := by
  rw [echoLines, List.mem_cons, List.mem_singleton] at h
  rcases h with rfl | rfl
  · exact Printable.append (by decide) (printable_escapeChars source.toList)
  · exact (Printable.append (by decide) (printable_columns (by decide) _)).append
      (printable_columns (by decide) _)

theorem printable_name (code : Code) : Printable code.name := by
  cases code <;> decide

variable {style : Style} {d : Diagnostic} {line : String}

theorem printable_of_mem_placeLines (h : line ∈ style.placeLines d) : Printable line := by
  unfold placeLines at h
  split at h
  · cases h
  · next span _ =>
      rcases List.mem_cons.mp h with rfl | hecho
      · exact Printable.append (by decide) (printable_toString span.start)
      · split at hecho
        · split at hecho
          · cases hecho
          · exact printable_of_mem_echoLines hecho
        · cases hecho

section

variable {p : Char → Prop} (hp : ∀ c, isPrintable c = true → p c)
  (hlabel : MadeOf p (style.severityLabel d.severity))

include hp hlabel

theorem madeOf_headline : MadeOf p (style.headline d) := by
  have hsign : ∀ {text}, Printable text → MadeOf p text := fun h => h.madeOf hp
  have hname : MadeOf p (style.severityLabel d.severity ++ "[" ++ d.code.name) :=
    (hlabel.append (hsign (by decide))).append (hsign (printable_name d.code))
  exact (hname.append (hsign (by decide))).append (hsign (style.printable_clean d.message))

/-- All of a report is printable but for the colours of the severity and the address of a page,
which is shown as it is given. -/
theorem madeOf_of_mem_reportLines (hurl : ∀ url ∈ d.helpUrl, MadeOf p url)
    (h : line ∈ style.reportLines d) : MadeOf p line := by
  have hsign : ∀ {text}, Printable text → MadeOf p text := fun h => h.madeOf hp
  rw [reportLines, List.mem_append, List.mem_append, List.mem_cons] at h
  rcases h with ((rfl | hplace) | hhelp) | hnote
  · exact madeOf_headline hp hlabel
  · exact hsign (printable_of_mem_placeLines hplace)
  · obtain ⟨hint, -, rfl⟩ := List.mem_map.mp hhelp
    exact (hsign (by decide)).append (hsign (style.printable_clean hint))
  · obtain ⟨url, hmem, rfl⟩ := List.mem_map.mp hnote
    have hgiven : url ∈ d.helpUrl := (Option.mem_filter_iff.mp (Option.mem_toList.mp hmem)).1
    exact (hsign (by decide)).append (hurl url hgiven)

end

theorem oneLine_of_mem_reportLines (hurl : ∀ url ∈ d.helpUrl, OneLine url)
    (h : line ∈ style.reportLines d) : OneLine line := by
  have hlabel : OneLine (style.severityLabel d.severity) := by
    unfold severityLabel
    cases d.severity <;> split <;> decide
  exact oneLine_iff.mpr (madeOf_of_mem_reportLines (fun _ => ne_newline_of_isPrintable)
    (oneLine_iff.mp hlabel) (fun url hmem => oneLine_iff.mp (hurl url hmem)) h)

theorem lines_format (hlayout : style.layout = .report)
    (hurl : ∀ url ∈ d.helpUrl, OneLine url) :
    (style.format d).toList.splitOn '\n' = (style.reportLines d).map String.toList := by
  simp only [format, hlayout]
  rw [String.toList_intercalate]
  refine List.splitOn_intercalate '\n' ?_ (by simp [reportLines])
  intro line hmem
  obtain ⟨text, htext, rfl⟩ := List.mem_map.mp hmem
  exact oneLine_of_mem_reportLines hurl htext

end Style

end PluralForms
