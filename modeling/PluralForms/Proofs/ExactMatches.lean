import PluralForms.Proofs.CaseFolding
import PluralForms.Proofs.NearestAncestor
import PluralForms.Proofs.PoolRequests

/-!
# Exact matches and fallbacks

Where no subtag of a code is empty, the code itself is its first candidate: what was entered for it
is found at once, and a warning tells that a candidate before was not known.  Empty subtags are left
out of all candidates.  Then none of them has the key of the code, what was entered for it is never
found, and whatever is found comes with a warning.
-/

namespace PluralForms

namespace Text

theorem trim_trim (text : List Char) : trim (trim text) = trim text := by
  have hfront : (trim text).dropWhile isSpace = trim text := by
    rw [List.dropWhile_eq_self_iff]
    intro hpos
    have hne : trim text ≠ [] := List.length_pos_iff.mp hpos
    have hprefix : trim text <+: text.dropWhile isSpace := List.rdropWhile_prefix _ _
    have hdrop : text.dropWhile isSpace ≠ [] := hprefix.ne_nil hne
    have hhead := List.head_dropWhile_not isSpace hdrop
    rw [← hprefix.head hne, List.head_eq_getElem hne] at hhead
    rw [hhead]
    exact Bool.false_ne_true
  rw [trim_eq (trim text), hfront, trim_eq, List.rdropWhile_idempotent]

theorem trim_map {f : Char → Char} (h : ∀ c, isSpace (f c) = isSpace c) (text : List Char) :
    trim (text.map f) = (trim text).map f := by
  have hcomp : isSpace ∘ f = isSpace := funext h
  rw [trim, List.dropWhile_map, hcomp, ← List.map_reverse, List.dropWhile_map, hcomp,
    ← List.map_reverse, trim]

theorem count_dropWhile {c : Char} (h : isSpace c = false) (text : List Char) :
    (text.dropWhile isSpace).count c = text.count c := by
  have hrun : (text.takeWhile isSpace).count c = 0 := by
    rw [List.count_eq_zero]
    intro hmem
    have hspace := List.all_eq_true.mp List.all_takeWhile c hmem
    rw [h] at hspace
    cases hspace
  conv_rhs =>
    rw [← List.takeWhile_append_dropWhile (p := isSpace) (l := text), List.count_append, hrun,
      Nat.zero_add]

theorem count_trim {c : Char} (h : isSpace c = false) (text : List Char) :
    (trim text).count c = text.count c := by
  rw [trim, List.count_reverse, count_dropWhile h, List.count_reverse, count_dropWhile h]

end Text

/-! ## Codes with an empty subtag -/

namespace Locale

open Text

theorem normalizeChars_normalizeChars (code : List Char) :
    normalizeChars (normalizeChars code) = normalizeChars code := by
  have hspace : ∀ c, isSpace (if c = '-' then '_' else c) = isSpace c := by
    intro c
    split
    · next hc =>
        subst hc
        rfl
    · rfl
  rw [normalizeChars_of_not_mem (hyphen_not_mem_normalizeChars code), normalizeChars,
    trim_map hspace, trim_trim]

theorem normalize_normalize (code : String) : normalize (normalize code) = normalize code := by
  rw [normalize, normalize, String.toList_ofList, normalizeChars_normalizeChars]

theorem key_normalize (code : String) : key (normalize code) = key code := by
  rw [key, key, normalize_normalize]

/-- No subtag of the code is empty.  The empty code has one, and that is empty. -/
def Gapless (code : String) : Prop :=
  [] ∉ (normalize code).toList.splitOn '_'

instance (code : String) : Decidable (Gapless code) :=
  inferInstanceAs (Decidable (_ ∉ _))

theorem gapless_iff {code : String} : Gapless code ↔ [] ∉ pieces (normalizeChars code.toList) := by
  rw [Gapless, normalize, String.toList_ofList, pieces_eq_splitOn]

theorem gapless_normalize {code : String} : Gapless (normalize code) ↔ Gapless code := by
  rw [Gapless, normalize_normalize, Gapless]

theorem subtags_of_gapless {code : String} (h : Gapless code) :
    subtags code = pieces (normalizeChars code.toList) := by
  rw [subtags, List.filter_eq_self]
  intro piece hpiece
  cases piece with
  | nil => exact absurd hpiece (gapless_iff.mp h)
  | cons c rest => rfl

theorem chain_of_gapless {code : String} (h : Gapless code) :
    ∃ ancestors, chain code = normalize code :: ancestors := by
  obtain ⟨first, others, hpieces⟩ :=
    List.exists_cons_of_ne_nil (pieces_ne_nil (normalizeChars code.toList))
  have hwhole : join (first :: others) = normalizeChars code.toList := by
    rw [← hpieces, join_pieces]
  rw [chain, subtags_of_gapless h, hpieces, List.length_cons, List.range_succ_eq_map, List.map_cons,
    Nat.sub_zero, ← List.length_cons (a := first), List.take_length, hwhole]
  exact ⟨_, rfl⟩

theorem length_pieces (code : List Char) : (pieces code).length = code.count '_' + 1 := by
  induction code with
  | nil => rfl
  | cons c rest ih =>
      by_cases hc : c = '_'
      · subst hc
        rw [pieces, if_pos rfl, List.length_cons, ih, List.count_cons_self]
      · rw [pieces_cons_of_ne hc, List.length_modifyHead, ih, List.count_cons_of_ne hc]

theorem underscore_not_mem_piece {code piece : List Char} (h : piece ∈ pieces code) :
    '_' ∉ piece := by
  induction code generalizing piece with
  | nil =>
      rw [List.mem_singleton.mp h]
      exact List.not_mem_nil
  | cons c rest ih =>
      by_cases hc : c = '_'
      · rw [pieces, if_pos hc] at h
        rcases List.mem_cons.mp h with rfl | hrest
        · exact List.not_mem_nil
        · exact ih hrest
      · obtain ⟨first, others, hrest⟩ := List.exists_cons_of_ne_nil (pieces_ne_nil rest)
        rw [pieces_cons_of_ne hc, hrest, List.modifyHead_cons] at h
        rw [hrest] at ih
        rcases List.mem_cons.mp h with rfl | hothers
        · rw [List.mem_cons, not_or]
          exact ⟨Ne.symm hc, ih List.mem_cons_self⟩
        · exact ih (List.mem_cons_of_mem _ hothers)

theorem length_pieces_key (code : String) :
    (pieces (key code).toList).length = (pieces (normalizeChars code.toList)).length := by
  rw [toList_key, pieces_foldChars, List.length_map]

theorem length_pieces_key_join {parts : List (List Char)} (hne : parts ≠ [])
    (hhyphen : ∀ part ∈ parts, '-' ∉ part) (hunderscore : ∀ part ∈ parts, '_' ∉ part) :
    (pieces (key (String.ofList (join parts))).toList).length = parts.length := by
  rw [length_pieces_key, String.toList_ofList,
    normalizeChars_of_not_mem (hyphen_not_mem_join hhyphen), length_pieces,
    count_trim rfl, ← length_pieces, pieces_eq_splitOn, join_eq_intercalate,
    List.splitOn_intercalate '_' hunderscore hne]

theorem length_subtags_lt_of_gap {code : String} (h : ¬Gapless code) :
    (subtags code).length < (pieces (normalizeChars code.toList)).length := by
  rw [gapless_iff, not_not] at h
  exact List.length_filter_lt_length_iff_exists.mpr ⟨[], h, by simp⟩

/-- Without its empty subtags a code has another key, and so have its ancestors. -/
theorem key_ne_of_gap {code candidate : String} (h : ¬Gapless code)
    (hmem : candidate ∈ chain code) : key candidate ≠ key code := by
  obtain ⟨dropped, hdropped, rfl⟩ := List.mem_map.mp hmem
  have hlt := List.mem_range.mp hdropped
  have hgap := length_subtags_lt_of_gap h
  have hpart : ∀ part ∈ (subtags code).take ((subtags code).length - dropped),
      part ∈ subtags code := fun part => List.mem_of_mem_take
  have hne : (subtags code).take ((subtags code).length - dropped) ≠ [] := by
    rw [← List.length_pos_iff, List.length_take]
    omega
  have hlength := length_pieces_key_join hne
    (fun part hmem => hyphen_not_mem_subtag (hpart part hmem))
    (fun part hmem => underscore_not_mem_piece (List.mem_filter.mp (hpart part hmem)).1)
  intro hkey
  rw [hkey, length_pieces_key, List.length_take] at hlength
  omega

/-- The only candidate that is spelled as the normal code is the first one, of a code without empty
subtags. -/
theorem eq_normalize_iff {code candidate : String} {tried others : List String}
    (hchain : chain code = tried ++ candidate :: others) :
    candidate = normalize code ↔ tried = [] ∧ Gapless code := by
  have hmem : candidate ∈ chain code := by
    rw [hchain]
    exact List.mem_append_right _ List.mem_cons_self
  by_cases hgapless : Gapless code
  · rw [and_iff_left hgapless]
    obtain ⟨ancestors, hfirst⟩ := chain_of_gapless hgapless
    cases tried with
    | nil =>
        rw [hfirst, List.nil_append, List.cons.injEq] at hchain
        simp [hchain.1]
    | cons longest tried =>
        have hpairwise := pairwise_chain code
        rw [hchain, List.cons_append, List.pairwise_cons] at hpairwise
        have hancestor := hpairwise.1 candidate (List.mem_append_right _ List.mem_cons_self)
        rw [hfirst, List.cons_append, List.cons.injEq] at hchain
        rw [← hchain.1] at hancestor
        have hlt := hancestor.length_le
        rw [List.length_append, List.length_singleton] at hlt
        constructor
        · rintro rfl
          omega
        · exact nofun
  · rw [iff_false_right fun h => hgapless h.2]
    rintro rfl
    exact key_ne_of_gap hgapless hmem (key_normalize code)

end Locale

/-! ## Warnings -/

namespace Provider

section

variable {κ : Type} {provider : Provider} {code kind candidate : String} {rules : RuleMap}

/-- Rules are those of the first candidate that is known; each one before it leaves a record. -/
theorem firstKnown_eq_ok {candidates : List String} {journal : Journal κ}
    (h : provider.firstKnown code kind candidates = (.ok (candidate, rules), journal)) :
    ∃ tried others, candidates = tried ++ candidate :: others ∧
      (∀ longer ∈ tried, ∃ locale name,
        provider.lookup longer kind = .error (.localeNotFound locale name)) ∧
      provider.lookup candidate kind = .ok rules ∧
      journal = tried.map (.missing kind · provider.id.label) ++
        if candidate = Locale.normalize code then [] else [.fellBack kind code candidate] := by
  induction candidates generalizing journal with
  | nil => cases h
  | cons first later ih =>
      unfold firstKnown at h
      split at h
      · next found hfound =>
          cases h
          refine ⟨[], later, rfl, nofun, hfound, ?_⟩
          rw [List.map_nil, List.nil_append]
      · cases h
      · next locale name hfirst =>
          cases hrest : (provider.firstKnown code kind later : _ × Journal κ) with
          | mk outcome notes =>
              rw [hrest] at h
              cases h
              obtain ⟨tried, others, rfl, htried, hfound, rfl⟩ := ih hrest
              exact ⟨first :: tried, others, rfl,
                List.forall_mem_cons.mpr ⟨⟨locale, name, hfirst⟩, htried⟩, hfound, rfl⟩

/-- Whoever provides the rules, a warning tells that a candidate before was not known, or else that
the code has an empty subtag. -/
theorem warns_iff {journal : Journal κ}
    (hresolved : provider.resolve code kind = (.ok (candidate, rules), journal)) :
    ∃ tried others, Locale.chain code = tried ++ candidate :: others ∧
      (∀ longer ∈ tried, ∃ locale name,
        provider.lookup longer kind = .error (.localeNotFound locale name)) ∧
      provider.lookup candidate kind = .ok rules ∧
      ((∃ record ∈ journal, record.level = "WARNING") ↔ tried ≠ [] ∨ ¬Locale.Gapless code) := by
  obtain ⟨tried, others, hchain, htried, hfound, rfl⟩ := firstKnown_eq_ok hresolved
  refine ⟨tried, others, hchain, htried, hfound, ?_⟩
  have hmissing : ¬∃ record ∈ (tried.map (.missing kind · provider.id.label) : Journal κ),
      record.level = "WARNING" := by
    rintro ⟨record, hmem, hlevel⟩
    obtain ⟨longer, -, rfl⟩ := List.mem_map.mp hmem
    have hlevel : "DEBUG" = "WARNING" := hlevel
    exact absurd hlevel (by decide)
  have hexact : ¬(candidate = Locale.normalize code) ↔ tried ≠ [] ∨ ¬Locale.Gapless code := by
    rw [Locale.eq_normalize_iff hchain, Classical.not_and_iff_not_or_not]
  rw [← hexact]
  constructor
  · rintro ⟨record, hmem, hlevel⟩ hsame
    rw [if_pos hsame, List.append_nil] at hmem
    exact hmissing ⟨record, hmem, hlevel⟩
  · intro hother
    rw [if_neg hother]
    exact ⟨.fellBack kind code candidate, List.mem_append_right _ List.mem_cons_self, rfl⟩

end

def singleRule (locale : String) : List RuleTable.Entry :=
  [(locale, [("cardinal", [("one", .text "n = 1")])])]

/-- The rules of a region serve what is spoken in a part of it, with a warning. -/
theorem warns_iff_part_of_region :
    ∃ table, RuleTable.ofEntries (singleRule "en-us") = .ok table ∧
      ∃ journal : Journal Unit, (ofTable "rules" table).resolve "en-US-posix" "cardinal" =
          (.ok ("en_US", [("one", .text "n = 1")]), journal) ∧
        ∃ record ∈ journal, record.level = "WARNING" := by
  have hresolved : (ofTable "rules" ⟨[(("en_us", .cardinal), [("one", .text "n = 1")])]⟩).resolve
      "en-US-posix" "cardinal" = (.ok ("en_US", [("one", .text "n = 1")]),
        [.missing "cardinal" "en_US_posix" "StaticRuleProvider(<1 rule sets>)",
          (.fellBack "cardinal" "en-US-posix" "en_US" : Record Unit)]) := by
    decide +kernel
  refine ⟨_, by decide +kernel, _, hresolved, ?_⟩
  obtain ⟨tried, others, hchain, -, -, hwarns⟩ := warns_iff hresolved
  refine hwarns.mpr (.inl ?_)
  rintro rfl
  have hfirst : Locale.chain "en-US-posix" = ["en_US_posix", "en_US", "en"] := by
    decide +kernel
  rw [hfirst, List.nil_append, List.cons.injEq] at hchain
  exact absurd hchain.1 (by decide)

/-- The region is found at the first attempt, and a warning tells that its rules are not known. -/
theorem warns_at_first_attempt :
    ∃ table, RuleTable.ofEntries (singleRule "en_US") = .ok table ∧
      Locale.chain "en__US" = ["en_US", "en"] ∧
      table.lookup "en_US" "cardinal" = .ok [("one", .text "n = 1")] ∧
      ∃ record : Record Unit, record.level = "WARNING" ∧
        (ofTable "rules" table).resolve "en__US" "cardinal" =
          (.ok ("en_US", [("one", .text "n = 1")]), [record]) := by
  refine ⟨⟨[(("en_us", .cardinal), [("one", .text "n = 1")])]⟩, ?_, ?_, ?_,
    .fellBack "cardinal" "en__US" "en_US", rfl, ?_⟩ <;> decide +kernel

end Provider

/-! ## What was entered for the code itself -/

namespace RuleTable

variable {table : RuleTable}

theorem lookup_eq (table : RuleTable) (code : String) (kind : RuleKind) :
    table.lookup code kind.name =
      match table.find? (Locale.key code, kind) with
      | some rules => .ok rules
      | none => .error (.localeNotFound code kind.name) := by
  rw [lookup, RuleKind.named_name]
  rfl

theorem lookup_eq_ok_iff {code : String} {kind : RuleKind} {rules : RuleMap} :
    table.lookup code kind.name = .ok rules ↔
      table.find? (Locale.key code, kind) = some rules := by
  rw [lookup_eq]
  split
  · next found hfind => rw [hfind, Except.ok.injEq, Option.some.injEq]
  · next hnone => simp [hnone]

theorem lookup_normalize_eq_ok_iff {code : String} {kind : RuleKind} {rules : RuleMap} :
    table.lookup (Locale.normalize code) kind.name = .ok rules ↔
      table.lookup code kind.name = .ok rules := by
  rw [lookup_eq_ok_iff, lookup_eq_ok_iff, Locale.key_normalize]

/-- What is entered under one key changes nothing for the others. -/
theorem lookup_insert_of_ne {code : String} {key : String} (kind : RuleKind) (rules : RuleMap)
    (hkey : Locale.key code ≠ key) :
    (table.insert (key, kind) rules).lookup code kind.name = table.lookup code kind.name := by
  have hne : (Locale.key code, kind) ≠ (key, kind) := fun h => hkey (Prod.mk.inj h).1
  rw [lookup_eq, find?_insert_of_ne _ _ hne, lookup_eq]

theorem named_of_foldlM_insertRow {rows : List Row} {after : RuleTable}
    (h : rows.foldlM insertRow table = .ok after) :
    ∀ row ∈ rows, ∃ kind, RuleKind.named row.kind = .ok kind := by
  induction rows generalizing table with
  | nil => exact nofun
  | cons row others ih =>
      rw [List.foldlM_cons] at h
      cases hkind : RuleKind.named row.kind with
      | error e =>
          rw [insertRow, hkind] at h
          cases h
      | ok kind =>
          rw [insertRow, hkind] at h
          exact List.forall_mem_cons.mpr ⟨⟨kind, hkind⟩, ih h⟩

theorem lookup_of_mem_rows {entries : List Entry} (h : ofEntries entries = .ok table) {row : Row}
    (hmem : row ∈ rows entries) :
    ∃ kind rules, row.kind = RuleKind.name kind ∧
      table.lookup row.locale kind.name = .ok rules := by
  have hfold := h
  rw [ofEntries_eq_foldlM_rows] at hfold
  obtain ⟨kind, hkind⟩ := named_of_foldlM_insertRow hfold row hmem
  have hname : row.kind = kind.name := (RuleKind.name_of_named hkind).symm
  have hfits : row.rules ∈ (rows entries).filterMap (·.rulesFor? row.locale kind) := by
    refine List.mem_filterMap.mpr ⟨row, hmem, ?_⟩
    rw [Row.rulesFor?, if_pos ⟨rfl, hname⟩]
  have hlast := List.getLast?_eq_getLast_of_ne_nil (List.ne_nil_of_mem hfits)
  exact ⟨kind, _, hname, lookup_of_entered h hlast⟩

/-- With the table as a provider, any request for the code comes to the selector of the rules,
whatever the pool keeps. -/
def Serves (table : RuleTable) (code : String) (kind : RuleKind) (rules : RuleMap) : Prop :=
  ∀ (directory : Directory) (id : Provider.Id) (pool : SelectorPool),
    directory.lookup id = table.lookup → pool.Sound directory →
      (pool.request (directory.provider id) code kind.name).1.1.map Stamped.selector =
        (Selector.ofRules (Locale.normalize code) kind rules : _ × Journal SelectorKey).1

end RuleTable

namespace Provider

variable {κ : Type} {provider : Provider} {table : RuleTable} {code : String} {rules : RuleMap}

/-- Where no subtag is empty, an exact match is the first that is found. -/
theorem resolve_of_gapless {kind : RuleKind} (hlookup : provider.lookup = table.lookup)
    (hgapless : Locale.Gapless code) (hfound : table.lookup code kind.name = .ok rules) :
    (provider.resolve code kind.name : _ × Journal κ) =
      (.ok (Locale.normalize code, rules), []) := by
  obtain ⟨ancestors, hchain⟩ := Locale.chain_of_gapless hgapless
  have hfirst : provider.lookup (Locale.normalize code) kind.name = .ok rules := by
    rw [hlookup]
    exact RuleTable.lookup_normalize_eq_ok_iff.mpr hfound
  rw [resolve, hchain, firstKnown, hfirst]
  exact congrArg (Prod.mk _) (if_pos rfl)

theorem serves_of_gapless {kind : RuleKind} (hgapless : Locale.Gapless code)
    (hfound : table.lookup code kind.name = .ok rules) : table.Serves code kind rules := by
  intro directory id pool hlookup hsound
  have hnormal := RuleTable.lookup_normalize_eq_ok_iff.mpr hfound
  have hresolved : ((directory.provider id).resolve (Locale.normalize code) kind.name :
      _ × Journal SelectorKey) = (.ok (Locale.normalize (Locale.normalize code), rules), []) :=
    resolve_of_gapless hlookup (Locale.gapless_normalize.mpr hgapless) hnormal
  rw [SelectorPool.selector_of_request hsound]
  simp only [Directory.selector, hresolved, Selector.ofNamedKind, RuleKind.named_name]

theorem firstKnown_fst_congr {other : Provider} {kind : String} {candidates : List String}
    (h : ∀ candidate ∈ candidates, provider.lookup candidate kind = other.lookup candidate kind) :
    (provider.firstKnown code kind candidates : _ × Journal κ).1 =
      (other.firstKnown code kind candidates : _ × Journal κ).1 := by
  induction candidates with
  | nil => rfl
  | cons candidate others ih =>
      obtain ⟨hfirst, hothers⟩ := List.forall_mem_cons.mp h
      rw [firstKnown, firstKnown, hfirst]
      split
      · rfl
      · rfl
      · exact ih hothers

/-- A locale that was entered with rules is found under its own code, by a lookup with fallback and
by a request for its selector, unless one of its subtags is empty.  Where one is, the fallback
leaves it out, and what was entered for the code is not looked at. -/
theorem resolve_exact_match {entries : List RuleTable.Entry}
    (hentered : RuleTable.ofEntries entries = .ok table) (name code : String) (kind : RuleKind) :
    (Locale.Gapless code → ∀ rules, table.lookup code kind.name = .ok rules →
        ((ofTable name table).resolve code kind.name : _ × Journal κ) =
            (.ok (Locale.normalize code, rules), []) ∧
          table.Serves code kind rules) ∧
      (∀ row ∈ RuleTable.rows entries, Locale.Gapless row.locale →
        ∃ kind rules, row.kind = RuleKind.name kind ∧
          table.lookup row.locale kind.name = .ok rules ∧ table.Serves row.locale kind rules) ∧
      (¬Locale.Gapless code → ∀ rules,
        ((ofTable name (table.insert (Locale.key code, kind) rules)).resolve code kind.name :
            _ × Journal κ).1 =
          ((ofTable name table).resolve code kind.name : _ × Journal κ).1) := by
  refine ⟨?_, ?_, ?_⟩
  · intro hgapless rules hfound
    exact ⟨resolve_of_gapless rfl hgapless hfound, serves_of_gapless hgapless hfound⟩
  · intro row hmem hgapless
    obtain ⟨kind, rules, hkind, hfound⟩ := RuleTable.lookup_of_mem_rows hentered hmem
    exact ⟨kind, rules, hkind, hfound, serves_of_gapless hgapless hfound⟩
  · intro hgap rules
    refine firstKnown_fst_congr fun candidate hmem => ?_
    exact RuleTable.lookup_insert_of_ne kind rules (Locale.key_ne_of_gap hgap hmem)

/-- A locale of three subtags, entered with a hyphen and in capitals. -/
theorem resolve_exact_match_respelled :
    ∃ table, RuleTable.ofEntries (singleRule "SR-Latn_RS") = .ok table ∧
      Locale.Gapless " sr_latn-rs" ∧
      ((ofTable "rules" table).resolve " sr_latn-rs" "cardinal" : _ × Journal Unit) =
        (.ok ("sr_latn_rs", [("one", .text "n = 1")]), []) ∧
      table.Serves " sr_latn-rs" .cardinal [("one", .text "n = 1")] := by
  have hentered : RuleTable.ofEntries (singleRule "SR-Latn_RS") =
      .ok ⟨[(("sr_latn_rs", .cardinal), [("one", .text "n = 1")])]⟩ := by
    decide +kernel
  have hgapless : Locale.Gapless " sr_latn-rs" := by
    decide +kernel
  have hnormal : Locale.normalize " sr_latn-rs" = "sr_latn_rs" := by
    decide +kernel
  obtain ⟨hexact, -, -⟩ :=
    resolve_exact_match (κ := Unit) hentered "rules" " sr_latn-rs" .cardinal
  obtain ⟨hresolved, hserves⟩ := hexact hgapless [("one", .text "n = 1")] (by decide +kernel)
  rw [hnormal] at hresolved
  exact ⟨_, hentered, hgapless, hresolved, hserves⟩

/-- What was entered for a code with an empty subtag is found by a plain lookup only. -/
theorem resolve_misses_exact_match :
    ∃ table, RuleTable.ofEntries (singleRule "en__US") = .ok table ∧
      table.lookup "en__US" "cardinal" = .ok [("one", .text "n = 1")] ∧
      ((ofTable "rules" table).resolve "en__US" "cardinal" : _ × Journal Unit).1 =
        .error (.localeNotFound "en__US" "cardinal") := by
  refine ⟨⟨[(("en__us", .cardinal), [("one", .text "n = 1")])]⟩, ?_, ?_, ?_⟩ <;> decide +kernel

end Provider

end PluralForms
