import PluralForms.Proofs.ExactMatches

/-!
# Two spellings of a code

Two codes with one key have as many candidates, and each two of one depth have one key again, though
their texts may differ in length.  So a table tells the two runs of a resolution apart at no step:
both take the rules of the same depth, or both refuse their code.
-/

namespace PluralForms

/-! ## Candidates in step -/

namespace Locale

theorem forall₂_chain {a b : String} (h : key a = key b) :
    List.Forall₂ (fun first second => key first = key second) (chain a) (chain b) := by
  have hkeys := map_key_chain_congr h
  rwa [← List.forall₂_eq_eq_eq, List.forall₂_map_left_iff, List.forall₂_map_right_iff] at hkeys

end Locale

namespace RuleTable

/-- What comes of the candidates of a code: the first one that is known stands at a depth and has
rules, or none is known and the code is refused. -/
inductive Ends (table : RuleTable) (code : String) (kind : RuleKind) (candidates : List String) :
    Option (Nat × RuleMap) → Except LookupError (String × RuleMap) → Prop where
  | found {depth : Nat} {candidate : String} {rules : RuleMap}
      (hdepth : candidates[depth]? = some candidate)
      (htried : ∀ longer ∈ candidates.take depth,
        table.lookup longer kind.name = .error (.localeNotFound longer kind.name))
      (hfound : table.lookup candidate kind.name = .ok rules) :
      Ends table code kind candidates (some (depth, rules)) (.ok (candidate, rules))
  | refused
      (hnone : ∀ tried ∈ candidates,
        table.lookup tried kind.name = .error (.localeNotFound tried kind.name)) :
      Ends table code kind candidates none (.error (.localeNotFound code kind.name))

def deeper : Option (Nat × RuleMap) → Option (Nat × RuleMap) :=
  Option.map fun (depth, rules) => (depth + 1, rules)

variable {table : RuleTable} {code : String} {kind : RuleKind}

theorem Ends.later {candidate : String} {others : List String} {ending : Option (Nat × RuleMap)}
    {outcome : Except LookupError (String × RuleMap)}
    (hfirst : table.lookup candidate kind.name = .error (.localeNotFound candidate kind.name))
    (hothers : Ends table code kind others ending outcome) :
    Ends table code kind (candidate :: others) (deeper ending) outcome := by
  cases hothers with
  | found hdepth htried hfound =>
      refine .found (List.getElem?_cons_succ.trans hdepth) ?_ hfound
      exact List.forall_mem_cons.mpr ⟨hfirst, htried⟩
  | refused hnone => exact .refused (List.forall_mem_cons.mpr ⟨hfirst, hnone⟩)

end RuleTable

namespace Provider

variable {κ : Type} {provider : Provider} {table : RuleTable} {kind : RuleKind} {a b : String}

/-- Where the candidates have the same keys one by one, two runs end alike. -/
theorem ends_firstKnown (hlookup : provider.lookup = table.lookup) {firsts seconds : List String}
    (h : List.Forall₂ (fun first second => Locale.key first = Locale.key second) firsts seconds) :
    ∃ ending,
      table.Ends a kind firsts ending
        (provider.firstKnown a kind.name firsts : _ × Journal κ).1 ∧
      table.Ends b kind seconds ending
        (provider.firstKnown b kind.name seconds : _ × Journal κ).1 := by
  induction h with
  | nil => exact ⟨none, .refused (List.forall_mem_nil _), .refused (List.forall_mem_nil _)⟩
  | @cons first second firsts seconds hkey _ ih =>
      have hfirst := table.lookup_eq first kind
      have hsecond := table.lookup_eq second kind
      rw [← hkey] at hsecond
      cases hfind : table.find? (Locale.key first, kind) with
      | some rules =>
          simp only [hfind] at hfirst hsecond
          simp only [firstKnown, hlookup, hfirst, hsecond]
          exact ⟨some (0, rules), .found rfl (List.forall_mem_nil _) hfirst,
            .found rfl (List.forall_mem_nil _) hsecond⟩
      | none =>
          simp only [hfind] at hfirst hsecond
          simp only [firstKnown, hlookup, hfirst, hsecond]
          obtain ⟨ending, hfirsts, hseconds⟩ := ih
          exact ⟨RuleTable.deeper ending, hfirsts.later hfirst, hseconds.later hsecond⟩

theorem ends_resolve (hlookup : provider.lookup = table.lookup) (kind : RuleKind)
    (h : Locale.key a = Locale.key b) :
    ∃ ending,
      table.Ends a kind (Locale.chain a) ending
        (provider.resolve a kind.name : _ × Journal κ).1 ∧
      table.Ends b kind (Locale.chain b) ending
        (provider.resolve b kind.name : _ × Journal κ).1 :=
  ends_firstKnown hlookup (Locale.forall₂_chain h)

end Provider

/-! ## Selectors of the two codes -/

/-- Both codes have selectors and these take all operands to the same categories, or neither has
one. -/
inductive Selector.SameChoices :
    Except SelectorError Selector → Except SelectorError Selector → Prop where
  | built {first second : Selector} (hselect : ∀ x, first.select? x = second.select? x) :
      SameChoices (.ok first) (.ok second)
  | refused (first second : SelectorError) : SameChoices (.error first) (.error second)

theorem Selector.sameChoices_ofRules {κ : Type} (a b : String) (kind : RuleKind) (rules : RuleMap) :
    SameChoices (ofRules a kind rules : _ × Journal κ).1
      (ofRules b kind rules : _ × Journal κ).1 := by
  unfold ofRules
  split
  · exact .refused _ _
  · exact .built fun _ => rfl
  · exact .refused _ _

theorem Directory.sameChoices_selector {directory : Directory} {id : Provider.Id}
    {table : RuleTable} (hlookup : directory.lookup id = table.lookup) (kind : RuleKind)
    {a b : String} (h : Locale.key a = Locale.key b) :
    Selector.SameChoices (directory.selector ⟨id, Locale.normalize a, kind⟩)
      (directory.selector ⟨id, Locale.normalize b, kind⟩) := by
  rw [← Locale.key_normalize a, ← Locale.key_normalize b] at h
  have hprovider : (directory.provider id).lookup = table.lookup := hlookup
  obtain ⟨ending, hfirst, hsecond⟩ := Provider.ends_resolve (κ := SelectorKey) hprovider kind h
  simp only [selector, Selector.ofNamedKind, RuleKind.named_name]
  revert hfirst hsecond
  generalize ((directory.provider id).resolve (Locale.normalize a) kind.name :
    _ × Journal SelectorKey).1 = first
  generalize ((directory.provider id).resolve (Locale.normalize b) kind.name :
    _ × Journal SelectorKey).1 = second
  intro hfirst hsecond
  cases hfirst with
  | found =>
      cases hsecond with
      | found => exact Selector.sameChoices_ofRules _ _ kind _
  | refused =>
      cases hsecond with
      | refused => exact .refused _ _

namespace Provider

/-- Whether a code is spelled with hyphens or underscores, with blanks around it, or in letters of
another case, has no part in its resolution: both spellings come to the same rules at the same depth
or are both refused, and the selectors that any pools have for them choose alike. -/
theorem resolve_respelled {κ : Type} (table : RuleTable) (name : String) (kind : RuleKind)
    {a b : String}
    (h : Text.foldCase (Locale.normalize a) = Text.foldCase (Locale.normalize b)) :
    (∃ ending,
      table.Ends a kind (Locale.chain a) ending
        ((ofTable name table).resolve a kind.name : _ × Journal κ).1 ∧
      table.Ends b kind (Locale.chain b) ending
        ((ofTable name table).resolve b kind.name : _ × Journal κ).1) ∧
      ∀ (directory : Directory) (id : Provider.Id) (first second : SelectorPool),
        directory.lookup id = table.lookup → first.Sound directory → second.Sound directory →
          Selector.SameChoices
            ((first.request (directory.provider id) a kind.name).1.1.map Stamped.selector)
            ((second.request (directory.provider id) b kind.name).1.1.map Stamped.selector) := by
  refine ⟨ends_resolve rfl kind h, ?_⟩
  intro directory id first second hlookup hfirst hsecond
  rw [SelectorPool.selector_of_request hfirst, SelectorPool.selector_of_request hsecond]
  exact Directory.sameChoices_selector hlookup kind h

/-- A spelling with `ß` and one with `SS`: the second candidate has the rules of both, and new pools
have selectors that choose alike. -/
theorem resolve_respelled_sharp_s :
    ∃ table, RuleTable.ofEntries (singleRule "Xx_sS") = .ok table ∧
      Text.foldCase (Locale.normalize " xx-ß-YY") = Text.foldCase (Locale.normalize "XX_SS_yy") ∧
      Locale.chain " xx-ß-YY" = ["xx_ß_YY", "xx_ß", "xx"] ∧
      ((ofTable "rules" table).resolve " xx-ß-YY" "cardinal" : _ × Journal Unit).1 =
        .ok ("xx_ß", [("one", .text "n = 1")]) ∧
      (∃ candidate, (Locale.chain "XX_SS_yy")[1]? = some candidate ∧
        ((ofTable "rules" table).resolve "XX_SS_yy" "cardinal" : _ × Journal Unit).1 =
          .ok (candidate, [("one", .text "n = 1")])) ∧
      Selector.SameChoices
        ((({} : SelectorPool).request (ofTable "rules" table) " xx-ß-YY" "cardinal").1.1.map
          Stamped.selector)
        ((({} : SelectorPool).request (ofTable "rules" table) "XX_SS_yy" "cardinal").1.1.map
          Stamped.selector) := by
  have hkey : Text.foldCase (Locale.normalize " xx-ß-YY") =
      Text.foldCase (Locale.normalize "XX_SS_yy") := by
    decide +kernel
  have hchain : Locale.chain " xx-ß-YY" = ["xx_ß_YY", "xx_ß", "xx"] := by
    decide +kernel
  let table : RuleTable := ⟨[(("xx_ss", .cardinal), [("one", .text "n = 1")])]⟩
  have hresolved :
      ((ofTable "rules" table).resolve " xx-ß-YY" "cardinal" : _ × Journal Unit).1 =
        .ok ("xx_ß", [("one", .text "n = 1")]) := by
    decide +kernel
  obtain ⟨⟨ending, hfirst, hsecond⟩, hpools⟩ :=
    resolve_respelled (κ := Unit) table "rules" .cardinal hkey
  let directory : Directory := ⟨fun _ => table.lookup⟩
  have hsound : SelectorPool.Sound directory {} :=
    SelectorPool.sound_of_entries_eq_nil directory rfl
  refine ⟨table, by decide +kernel, hkey, hchain, hresolved, ?_,
    hpools directory (ofTable "rules" table).id {} {} rfl hsound hsound⟩
  generalize houtcome : ((ofTable "rules" table).resolve "XX_SS_yy" "cardinal" :
    _ × Journal Unit).1 = outcome
  replace hsecond : table.Ends "XX_SS_yy" .cardinal (Locale.chain "XX_SS_yy") ending outcome :=
    houtcome ▸ hsecond
  replace hfirst := hresolved ▸ hfirst
  rw [hchain] at hfirst
  cases hfirst with
  | @found depth _ _ hdepth =>
      have hsame : ["xx_ß_YY", "xx_ß", "xx"][1]? = ["xx_ß_YY", "xx_ß", "xx"][depth]? := hdepth.symm
      obtain rfl := (List.getElem?_inj (by decide) (by decide +kernel)).mp hsame
      cases hsecond with
      | found hdepth => exact ⟨_, hdepth, rfl⟩

end Provider

end PluralForms
