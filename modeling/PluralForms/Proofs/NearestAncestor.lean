import PluralForms.Provider

/-!
# The nearest ancestor

A table keeps, for each locale in any spelling, the rules that were entered last.  Resolving a code
tries the code and its ancestors, the longest first, and takes the rules of the first one that was
entered.
-/

namespace PluralForms

/-! ## Subtags -/

namespace Locale

/-- The code goes on with further subtags behind its ancestor. -/
def IsAncestor (ancestor code : String) : Prop :=
  ancestor.toList ++ ['_'] <+: code.toList

theorem pieces_eq_splitOn (code : List Char) : pieces code = code.splitOn '_' := by
  induction code with
  | nil => rfl
  | cons c rest ih =>
      rw [pieces, List.splitOn_eq_splitOnP, List.splitOnP_cons_eq_if_modifyHead,
        ← List.splitOn_eq_splitOnP, ← ih]
      by_cases hc : c = '_'
      · simp [hc]
      · simp only [hc, if_false, beq_iff_eq]
        split
        · next hnil => exact absurd hnil (pieces_ne_nil rest)
        · next heq => rw [heq, List.modifyHead_cons]

theorem join_eq_intercalate (parts : List (List Char)) : join parts = ['_'].intercalate parts := by
  induction parts with
  | nil => rfl
  | cons part others ih =>
      cases others with
      | nil => simp [join]
      | cons second others => simp [join, ih, List.intercalate_cons_cons]

theorem subtags_eq (code : String) :
    subtags code = ((normalize code).toList.splitOn '_').filter fun part => !part.isEmpty := by
  rw [subtags, pieces_eq_splitOn, normalize, String.toList_ofList]

/-- The candidates are the subtags with underscores between them, the last ones left out. -/
theorem chain_eq (code : String) :
    chain code = (List.range (subtags code).length).map fun dropped =>
      String.ofList (['_'].intercalate ((subtags code).take ((subtags code).length - dropped))) := by
  simp only [chain, join_eq_intercalate]

theorem join_append {front back : List (List Char)} (hfront : front ≠ []) (hback : back ≠ []) :
    join (front ++ back) = join front ++ '_' :: join back := by
  induction front with
  | nil => exact absurd rfl hfront
  | cons part others ih =>
      cases others with
      | nil =>
          obtain ⟨second, more, rfl⟩ := List.exists_cons_of_ne_nil hback
          rfl
      | cons second others =>
          have hlater := ih (List.cons_ne_nil second others)
          simp only [List.cons_append, join] at hlater ⊢
          rw [hlater]
          simp

theorem isAncestor_take {parts : List (List Char)} {short long : Nat} (hpos : 0 < short)
    (hlt : short < long) (hle : long ≤ parts.length) :
    IsAncestor (String.ofList (join (parts.take short)))
      (String.ofList (join (parts.take long))) := by
  have hsplit := List.take_append_drop short (parts.take long)
  rw [List.take_take, Nat.min_eq_left (Nat.le_of_lt hlt)] at hsplit
  have hfront : parts.take short ≠ [] := by
    rw [← List.length_pos_iff, List.length_take]
    omega
  have hback : (parts.take long).drop short ≠ [] := by
    rw [← List.length_pos_iff, List.length_drop, List.length_take]
    omega
  have hjoin : join (parts.take long) =
      join (parts.take short) ++ '_' :: join ((parts.take long).drop short) := by
    rw [← join_append hfront hback, hsplit]
  refine ⟨join ((parts.take long).drop short), ?_⟩
  rw [String.toList_ofList, String.toList_ofList, hjoin, List.append_assoc]
  rfl

/-- Of two candidates the later one is an ancestor of the earlier one. -/
theorem pairwise_chain (code : String) :
    (chain code).Pairwise fun longer shorter => IsAncestor shorter longer := by
  rw [chain, List.pairwise_map]
  refine List.pairwise_lt_range.imp_of_mem ?_
  intro few more _ hmore hlt
  have hroom := List.mem_range.mp hmore
  exact isAncestor_take (by omega) (by omega) (by omega)

end Locale

/-! ## Rules that were entered -/

namespace RuleTable

structure Row where
  locale : String
  kind : String
  rules : RuleMap
  deriving DecidableEq, Repr

def rows (entries : List Entry) : List Row :=
  entries.flatMap fun entry => entry.2.map fun (kind, rules) => ⟨entry.1, kind, rules⟩

def Row.rulesFor? (row : Row) (code : String) (kind : RuleKind) : Option RuleMap :=
  if Locale.key row.locale = Locale.key code ∧ row.kind = kind.name then some row.rules else none

/-- The rules that were entered last for a locale in any spelling. -/
def lastEntered? (entries : List Entry) (code : String) (kind : RuleKind) : Option RuleMap :=
  ((rows entries).filterMap (·.rulesFor? code kind)).getLast?

def insertRow (table : RuleTable) (row : Row) : Except LookupError RuleTable := do
  let kind ← RuleKind.named row.kind
  return table.insert (Locale.key row.locale, kind) row.rules

variable {table after : RuleTable}

theorem ofEntries_eq_foldlM_rows (entries : List Entry) :
    ofEntries entries = (rows entries).foldlM insertRow {} := by
  suffices h : ∀ table, entries.foldlM insertEntry table = (rows entries).foldlM insertRow table from
    h {}
  intro table
  induction entries generalizing table with
  | nil => rfl
  | cons entry others ih =>
      have hentry : (entry.2.map fun (kind, rules) => (⟨entry.1, kind, rules⟩ : Row)).foldlM
          insertRow table = insertEntry table entry := by
        rw [List.foldlM_map]
        rfl
      rw [List.foldlM_cons, rows, List.flatMap_cons, List.foldlM_append, hentry]
      congr 1
      funext after
      exact ih after

/-- A row gives its rules to its own locale and kind, and leaves the others theirs. -/
theorem find?_insertRow {row : Row} (h : table.insertRow row = .ok after) (code : String)
    (kind : RuleKind) :
    after.find? (Locale.key code, kind) =
      (row.rulesFor? code kind).or (table.find? (Locale.key code, kind)) := by
  unfold insertRow at h
  cases hkind : RuleKind.named row.kind with
  | error e =>
      rw [hkind] at h
      cases h
  | ok entered =>
      rw [hkind] at h
      cases h
      have hname := RuleKind.name_of_named hkind
      by_cases hfits : Locale.key row.locale = Locale.key code ∧ row.kind = kind.name
      · have hsame : entered = kind := by
          have hnamed := hkind
          rw [hfits.2, RuleKind.named_name] at hnamed
          exact (Except.ok.inj hnamed).symm
        rw [Row.rulesFor?, if_pos hfits, Option.some_or, hfits.1, hsame, find?_insert_self]
      · have hne : (Locale.key code, kind) ≠ (Locale.key row.locale, entered) := by
          intro hkey
          obtain ⟨hlocale, rfl⟩ := Prod.mk.inj hkey
          exact hfits ⟨hlocale.symm, hname.symm⟩
        rw [Row.rulesFor?, if_neg hfits, Option.none_or, find?_insert_of_ne _ _ hne]

theorem find?_foldlM_insertRow {rows : List Row} (h : rows.foldlM insertRow table = .ok after)
    (code : String) (kind : RuleKind) :
    after.find? (Locale.key code, kind) =
      (rows.filterMap (·.rulesFor? code kind)).getLast?.or
        (table.find? (Locale.key code, kind)) := by
  induction rows generalizing table with
  | nil =>
      cases h
      rfl
  | cons row others ih =>
      rw [List.foldlM_cons] at h
      cases hrow : table.insertRow row with
      | error e =>
          rw [hrow] at h
          cases h
      | ok next =>
          rw [hrow] at h
          rw [ih h, find?_insertRow hrow]
          cases hrules : row.rulesFor? code kind with
          | none => simp [hrules]
          | some rules =>
              cases hlast : (others.filterMap (·.rulesFor? code kind)).getLast? <;>
                simp [hrules, List.getLast?_cons, hlast]

/-- A table keeps the rules that were entered last. -/
theorem find?_ofEntries {entries : List Entry} (h : ofEntries entries = .ok table) (code : String)
    (kind : RuleKind) : table.find? (Locale.key code, kind) = lastEntered? entries code kind := by
  rw [ofEntries_eq_foldlM_rows] at h
  rw [find?_foldlM_insertRow h, lastEntered?]
  exact Option.or_none

theorem lookup_of_entered {entries : List Entry} {code : String} {kind : RuleKind}
    {rules : RuleMap} (h : ofEntries entries = .ok table)
    (hlast : lastEntered? entries code kind = some rules) :
    table.lookup code kind.name = .ok rules := by
  rw [← find?_ofEntries h] at hlast
  simp only [lookup, RuleKind.named_name, bind, Except.bind, hlast]

theorem lookup_of_not_entered {entries : List Entry} {code : String} {kind : RuleKind}
    (h : ofEntries entries = .ok table) (hlast : lastEntered? entries code kind = none) :
    table.lookup code kind.name = .error (.localeNotFound code kind.name) := by
  rw [← find?_ofEntries h] at hlast
  simp only [lookup, RuleKind.named_name, bind, Except.bind, hlast]

end RuleTable

/-! ## The first candidate that is known -/

namespace Provider

variable {κ : Type} {provider : Provider} {code kind candidate : String} {rules : RuleMap}

theorem firstKnown_of_found {tried : List String}
    (htried : ∀ longer ∈ tried, provider.lookup longer kind = .error (.localeNotFound longer kind))
    (hfound : provider.lookup candidate kind = .ok rules) (others : List String) :
    (provider.firstKnown code kind (tried ++ candidate :: others) : _ × Journal κ) =
      (.ok (candidate, rules),
        tried.map (.missing kind · provider.id.label) ++
          if candidate = Locale.normalize code then [] else [.fellBack kind code candidate]) := by
  induction tried with
  | nil => simp only [List.nil_append, List.map_nil, firstKnown, hfound]
  | cons longer tried ih =>
      obtain ⟨hlonger, htried⟩ := List.forall_mem_cons.mp htried
      simp only [List.cons_append, List.map_cons, firstKnown, hlonger, ih htried]

theorem firstKnown_of_none {candidates : List String}
    (hnone : ∀ tried ∈ candidates,
      provider.lookup tried kind = .error (.localeNotFound tried kind)) :
    (provider.firstKnown code kind candidates : _ × Journal κ) =
      (.error (.localeNotFound code kind),
        candidates.map (.missing kind · provider.id.label)) := by
  induction candidates with
  | nil => rfl
  | cons tried others ih =>
      obtain ⟨htried, hothers⟩ := List.forall_mem_cons.mp hnone
      simp only [List.map_cons, firstKnown, htried, ih hothers]

theorem filter_debug (tried : List String) (label : String) {fallback : Prop}
    [Decidable fallback] :
    ((tried.map (.missing kind · label) ++
        if fallback then [] else [.fellBack kind code candidate] : Journal κ).filter
      fun record => record.level == "DEBUG") = tried.map (.missing kind · label) := by
  rw [List.filter_append, List.filter_eq_self.mpr (by simp [Record.level])]
  split <;> simp [Record.level]

/-- Resolving a code in a table of entries tries the code and then its ancestors, each made of its
first non-empty subtags, the longest first.  The first one that was entered in any spelling gives
the rules that were entered for it last; the records tell of each one tried before it, and of a
fallback.  Where none was entered, and only there, the requested code is refused. -/
theorem resolve_nearest_entered {entries : List RuleTable.Entry} {table : RuleTable}
    (hentered : RuleTable.ofEntries entries = .ok table) (name code : String) (kind : RuleKind) :
    let parts := ((Locale.normalize code).toList.splitOn '_').filter fun part => !part.isEmpty
    let candidates := (List.range parts.length).map fun dropped =>
      String.ofList (['_'].intercalate (parts.take (parts.length - dropped)))
    let missing (candidate : String) : Record κ := .missing kind.name candidate table.label
    let resolved : _ × Journal κ := (ofTable name table).resolve code kind.name
    (candidates.Pairwise fun longer shorter => Locale.IsAncestor shorter longer) ∧
      ((∃ tried candidate others rules, candidates = tried ++ candidate :: others ∧
          (∀ longer ∈ tried, RuleTable.lastEntered? entries longer kind = none) ∧
          RuleTable.lastEntered? entries candidate kind = some rules ∧
          resolved = (.ok (candidate, rules), tried.map missing ++
            if candidate = Locale.normalize code then []
            else [.fellBack kind.name code candidate]) ∧
          (resolved.2.filter fun record => record.level == "DEBUG") = tried.map missing) ∨
        ((∀ candidate ∈ candidates, RuleTable.lastEntered? entries candidate kind = none) ∧
          resolved = (.error (.localeNotFound code kind.name), candidates.map missing))) ∧
      (∀ e, resolved.1 = .error e ↔ e = .localeNotFound code kind.name ∧
        ∀ candidate ∈ candidates, RuleTable.lastEntered? entries candidate kind = none) ∧
      (parts = [] → resolved = (.error (.localeNotFound code kind.name), [])) := by
  intro parts candidates missing resolved
  have hparts : Locale.subtags code = parts := Locale.subtags_eq code
  have hchain : Locale.chain code = candidates := by
    rw [Locale.chain_eq, hparts]
  have hpairwise := Locale.pairwise_chain code
  rw [hchain] at hpairwise
  have hresolved : resolved = (ofTable name table).firstKnown code kind.name candidates := by
    rw [← hchain]
    rfl
  have hempty : parts = [] → candidates = [] := by
    intro hparts
    show List.map _ (List.range parts.length) = []
    rw [hparts]
    rfl
  refine ⟨hpairwise, ?_⟩
  cases hfirst : candidates.findSome? (RuleTable.lastEntered? entries · kind) with
  | none =>
      have hnone := List.findSome?_eq_none_iff.mp hfirst
      have hrefused : resolved =
          (.error (.localeNotFound code kind.name), candidates.map missing) := by
        rw [hresolved]
        exact firstKnown_of_none fun tried hmem =>
          RuleTable.lookup_of_not_entered hentered (hnone tried hmem)
      refine ⟨.inr ⟨hnone, hrefused⟩, ?_, ?_⟩
      · intro e
        rw [hrefused, and_iff_left hnone, Except.error.injEq]
        exact eq_comm
      · intro hparts
        rw [hrefused, hempty hparts]
        rfl
  | some rules =>
      obtain ⟨tried, candidate, others, hsplit, hfound, htried⟩ :=
        List.findSome?_eq_some_iff.mp hfirst
      have hanswered : resolved = (.ok (candidate, rules), tried.map missing ++
          if candidate = Locale.normalize code then []
          else [.fellBack kind.name code candidate]) := by
        rw [hresolved, hsplit]
        exact firstKnown_of_found
          (fun longer hmem => RuleTable.lookup_of_not_entered hentered (htried longer hmem))
          (RuleTable.lookup_of_entered hentered hfound) others
      have hmem : candidate ∈ candidates := by
        rw [hsplit]
        exact List.mem_append_right _ List.mem_cons_self
      refine ⟨.inl ⟨tried, candidate, others, rules, hsplit, htried, hfound, hanswered, ?_⟩, ?_, ?_⟩
      · rw [hanswered]
        exact filter_debug tried table.label
      · intro e
        rw [hanswered]
        constructor
        · exact nofun
        · rintro ⟨-, hnone⟩
          rw [hnone candidate hmem] at hfound
          cases hfound
      · intro hparts
        rw [hempty hparts] at hmem
        cases hmem

def respelledEntries : List RuleTable.Entry :=
  [("SR", [("ordinal", []), ("cardinal", [("one", .text "i = 1")])]),
    ("sr_LATN", [("ordinal", [])]),
    ("sr", [("cardinal", [("few", .text "i = 2")])])]

/-- The code has no rules that count things, nor has its parent; those of the language are the ones
that were entered last. -/
theorem resolve_nearest_entered_respelled :
    ∃ table, RuleTable.ofEntries respelledEntries = .ok table ∧
      let resolved : _ × Journal Unit := (ofTable "rules" table).resolve " sr-Latn--RS" "cardinal"
      resolved.1 = .ok ("sr", [("few", .text "i = 2")]) := by
  cases hentered : RuleTable.ofEntries respelledEntries with
  | error e =>
      have hok : (RuleTable.ofEntries respelledEntries).isOk := by decide +kernel
      rw [hentered] at hok
      cases hok
  | ok table =>
      refine ⟨table, rfl, ?_⟩
      have hentry : RuleTable.lastEntered? respelledEntries "sr" .cardinal =
          some [("few", .text "i = 2")] := by
        decide +kernel
      obtain ⟨-, hfound | ⟨hnone, -⟩, -⟩ :=
        resolve_nearest_entered (κ := Unit) hentered "rules" " sr-Latn--RS" .cardinal
      · obtain ⟨tried, candidate, others, rules, hsplit, -, hfound, hanswered, -⟩ := hfound
        have hmem : candidate ∈ ["sr_Latn_RS", "sr_Latn", "sr"] := by
          have hall : ["sr_Latn_RS", "sr_Latn", "sr"] = tried ++ candidate :: others := by
            rw [← hsplit]
            decide +kernel
          rw [hall]
          exact List.mem_append_right _ List.mem_cons_self
        have hunknown : ∀ longer ∈ ["sr_Latn_RS", "sr_Latn"],
            RuleTable.lastEntered? respelledEntries longer .cardinal = none := by
          decide +kernel
        rcases List.mem_cons.mp hmem with rfl | hmem
        · exact absurd (hfound.symm.trans (hunknown _ (by decide))) (Option.some_ne_none rules)
        rcases List.mem_cons.mp hmem with rfl | hmem
        · exact absurd (hfound.symm.trans (hunknown _ (by decide))) (Option.some_ne_none rules)
        obtain rfl := List.mem_singleton.mp hmem
        rw [hentry] at hfound
        cases hfound
        exact congrArg Prod.fst hanswered
      · exact absurd (hnone "sr" (by decide +kernel)) (by rw [hentry]; exact Option.some_ne_none _)

end Provider

end PluralForms
