import Mathlib.Data.Set.Finite.Lemmas
import TsxLint.Proofs.Config.Entries
import TsxLint.Proofs.Config.Layers

/-!
# Which layer decides on a rule

Layers are merged by the keys that they use. Only then do the keys of rules get their one spelling,
and of several spellings of a rule the last one in order gives its setting. So a layer goes over the
layers below it as long as they spell a rule alike; where they do not, the greatest spelling
decides, even if only a lower layer uses it.

## Main definitions

* `Data.severity?`: the level that data sets for a rule.
* `ConfigLayers.spellings`: the keys under which layers mention a rule.
* `ConfigLayers.HighestDecides`: whether the highest layer that mentions a rule sets its level.

## Main results

* `Config.lookup_normalizeRules`: the last spelling of a rule gives its setting.
* `ConfigLayers.nodup_keys_of_load`: a loaded configuration sets no rule twice.
* `ConfigLayers.WellFormed.lookup_of_isGreatest`: the setting of a rule in a loaded configuration.
* `ConfigLayers.greatest_spelling_decides`: the highest layer that uses the greatest spelling of a
  rule sets its level, and the highest layer that mentions it if they all spell it alike.
-/

namespace TsxLint

/-! ### Levels -/

namespace Data

/-- The level that data sets for a rule, by a word alone or in a table. -/
def severity? : Data → Option Severity
  | text word => Severity.words.lookup word
  | table entries =>
    match entries.lookup "level" with
    | some (text word) => Severity.words.lookup word
    | _ => none
  | _ => none

theorem severity?_table_eq_some_iff {entries : List (String × Data)} {level : Severity} :
    (table entries).severity? = some level ↔
      ∃ word, entries.lookup "level" = some (text word) ∧
        Severity.words.lookup word = some level := by
  rw [severity?]
  split
  · rename_i word hword
    simp [hword]
  · rename_i hno
    simp only [reduceCtorEq, false_iff, not_exists, not_and]
    exact fun word hword => absurd hword (hno word)

/-- A level goes over whatever is below it. -/
theorem severity?_merge (base : Data) {upper : Data} {level : Severity}
    (h : upper.severity? = some level) : (base.merge upper).severity? = some level := by
  by_cases htables : base.isTable ∧ upper.isTable
  · obtain ⟨hbase, hupper⟩ := htables
    have hmerged := get?_merge base hupper "level"
    obtain ⟨merged, heq⟩ := isTable_iff.mp (isTable_merge base hupper)
    obtain ⟨above, rfl⟩ := isTable_iff.mp hupper
    obtain ⟨word, hword, hlevel⟩ := severity?_table_eq_some_iff.mp h
    have htext : ¬ (text word).isTable := Bool.false_ne_true
    rw [heq] at hmerged ⊢
    refine severity?_table_eq_some_iff.mpr ⟨word, ?_, hlevel⟩
    rw [get?, get?, hword] at hmerged
    cases hbelow : base.get? "level" with
    | none => rw [hmerged, hbelow, Option.merge_none_left]
    | some below => rw [hmerged, hbelow, Option.merge_some_some, merge_of_not_isTable_right _ htext]
  · have hreplaced : base.merge upper = upper := by
      by_cases hbase : base.isTable
      · exact merge_of_not_isTable_right base fun hupper => htables ⟨hbase, hupper⟩
      · exact merge_of_not_isTable_left hbase upper
    rwa [hreplaced]

/-- The level of the highest value is that of all of them. -/
theorem severity?_mergeAll? {values : List Data} {highest : Data} {level : Severity}
    (hlast : values.getLast? = some highest) (hlevel : highest.severity? = some level) :
    ∃ merged, mergeAll? values = some merged ∧ merged.severity? = some level := by
  obtain ⟨lower, rfl⟩ := List.getLast?_eq_some_iff.mp hlast
  rw [mergeAll?_concat]
  cases hlower : mergeAll? lower with
  | none => exact ⟨highest, rfl, hlevel⟩
  | some base => exact ⟨base.merge highest, rfl, severity?_merge base hlevel⟩

end Data

/-- A table that sets a level is no word for one. -/
theorem Data.choice?_of_severity? {entries : List (String × Data)} {level : Severity}
    (h : (table entries).severity? = some level) :
    choice? Severity.words (table entries) = none := by
  obtain ⟨word, hword, -⟩ := severity?_table_eq_some_iff.mp h
  rw [choice?.eq_def]
  split
  · rename_i heq; cases heq
  · rename_i other heq
    obtain rfl := table.inj heq
    rw [List.lookup_cons] at hword
    split at hword
    · cases hword
    · cases hword
  · rfl

/-- The level that data sets is the level of the setting that is read from it. -/
theorem RuleSetting.level?_of_severity? {data : Data} {setting : RuleSetting} {level : Severity}
    (hlevel : data.severity? = some level) (hread : RuleSetting.ofData? data = some setting) :
    setting.level? = some level := by
  cases data with
  | text word =>
    have hchoice : Data.choice? Severity.words (.text word) = some level := hlevel
    unfold ofData? at hread
    rw [hchoice] at hread
    obtain rfl := Option.some.inj hread
    rfl
  | table entries =>
    obtain ⟨word, hword, hlookup⟩ := Data.severity?_table_eq_some_iff.mp hlevel
    rw [ofData?, Data.choice?_of_severity? hlevel] at hread
    obtain ⟨read, hlevel', hread⟩ := Option.bind_eq_some_iff.mp hread
    obtain ⟨options, -, hread⟩ := Option.bind_eq_some_iff.mp hread
    obtain rfl := Option.some.inj hread
    rw [OptionTable.read?, hword] at hlevel'
    have hchoice : (Severity.words.lookup word).map some = some read := hlevel'
    rw [hlookup] at hchoice
    exact (Option.some.inj hchoice).symm
  | _ => cases hlevel

/-! ### Spellings -/

namespace Config

theorem normalizeRules_eq (rules : List (String × RuleSetting)) :
    normalizeRules rules = byKey ((rules.map fun e => (Naming.normalizeRuleName e.1, e.2)).foldl
      (fun kept e => setEntry kept e.1 e.2) []) := by
  rw [normalizeRules, List.foldl_map]

/-- Of all entries whose keys spell a rule, the last one counts. -/
theorem lookup_normalizeRules (rules : List (String × RuleSetting)) (rule : String) :
    (normalizeRules rules).lookup rule =
      (rules.map fun e => (Naming.normalizeRuleName e.1, e.2)).reverse.lookup rule := by
  have hnodup : (([] : List (String × RuleSetting)).map Prod.fst).Nodup := List.nodup_nil
  rw [normalizeRules_eq, lookup_byKey (nodup_foldl_setEntry _ hnodup), lookup_foldl_setEntry,
    List.lookup_nil, Option.or_none]

/-- In their one spelling, the names of rules are distinct. -/
theorem nodup_normalizeRules (rules : List (String × RuleSetting)) :
    ((normalizeRules rules).map Prod.fst).Nodup := by
  have hnodup : (([] : List (String × RuleSetting)).map Prod.fst).Nodup := List.nodup_nil
  rw [normalizeRules_eq, ((byKey_perm _).map Prod.fst).nodup_iff]
  exact nodup_foldl_setEntry _ hnodup

end Config

namespace ConfigLayers

/-- The keys under which layers mention a rule. -/
def spellings (layers : ConfigLayers) (rule : String) : Set String :=
  {key | layers.settingsAt key ≠ [] ∧ Naming.normalizeRuleName key = rule}

/-- Whether the highest layer that mentions a rule, by whatever key, decides on its level if it sets
one. -/
def HighestDecides (layers : ConfigLayers) (config : Config) (rule : String) : Prop :=
  ∀ below highest above key value level, layers.ruleTables = below ++ highest :: above →
    (∀ table ∈ above, ∀ k ∈ table.keys, Naming.normalizeRuleName k ≠ rule) →
    Naming.normalizeRuleName key = rule → highest.get? key = some value →
    value.severity? = some level →
    (config.rules.lookup rule).bind RuleSetting.level? = some level

variable {layers : ConfigLayers} {config : Config}

theorem read_of_load (hload : layers.load = .ok config) :
    ∃ read, Config.ofData? layers.merged = some read ∧ config = read.normalized := by
  unfold load at hload
  cases hdir : layers.toolchainDir? with
  | error e => rw [hdir] at hload; cases hload
  | ok dir =>
    simp only [hdir, bind, Except.bind] at hload
    split at hload
    · rename_i read hread
      exact ⟨read, hread, (Except.ok.inj hload).symm⟩
    · cases hload

end ConfigLayers

/-- The settings that are read are those in the table of rules, in the order of their keys. -/
theorem Config.rules_of_ofData? {data rules : Data} {config : Config}
    (hread : Config.ofData? data = some config) (hrules : data.get? "rules" = some rules) :
    ∃ entries settings, rules = .table entries ∧ config.rules = byKey settings ∧
      entries.mapM (fun e => (RuleSetting.ofData? e.2).map fun setting => (e.1, setting)) =
        some settings := by
  cases data with
  | table parts =>
    unfold ofData? at hread
    obtain ⟨table, htable, hread⟩ := Option.bind_eq_some_iff.mp hread
    obtain ⟨lint, -, hread⟩ := Option.bind_eq_some_iff.mp hread
    obtain ⟨settings, hsettings, hread⟩ := Option.bind_eq_some_iff.mp hread
    obtain ⟨dir, -, hread⟩ := Option.bind_eq_some_iff.mp hread
    obtain rfl := Option.some.inj hread
    obtain rfl : parts = table := Option.some.inj htable
    rw [Data.get?] at hrules
    rw [OptionTable.read?, hrules] at hsettings
    cases rules with
    | table entries =>
      obtain ⟨read, hmapM, hsettings⟩ := Option.bind_eq_some_iff.mp hsettings
      exact ⟨entries, read, rfl, (Option.some.inj hsettings).symm, hmapM⟩
    | _ => cases hsettings
  | _ => cases hrules

namespace ConfigLayers

variable {layers : ConfigLayers} {config : Config}

/-- The rules of a loaded configuration are those of the merged table, read and normalized. -/
theorem WellFormed.rules_of_load (h : layers.WellFormed) (hload : layers.load = .ok config) :
    ∃ settings : List (String × RuleSetting),
      config.rules = Config.normalizeRules (byKey settings) ∧ (settings.map Prod.fst).Nodup ∧
      (∀ key, key ∈ settings.map Prod.fst ↔ layers.settingsAt key ≠ []) ∧
      ∀ key, settings.lookup key =
        (Data.mergeAll? (layers.settingsAt key)).bind RuleSetting.ofData? := by
  obtain ⟨rules, hrules, hnodup, hget⟩ := h.rules_merged
  obtain ⟨read, hread, rfl⟩ := read_of_load hload
  obtain ⟨entries, settings, rfl, hsettings, hmapM⟩ := Config.rules_of_ofData? hread hrules
  have hkeys : settings.map Prod.fst = (Data.table entries).keys := keys_of_mapM hmapM
  refine ⟨settings, ?_, hkeys ▸ hnodup, fun key => ?_, fun key => ?_⟩
  · rw [Config.normalized, hsettings]
  · rw [hkeys, Data.mem_keys_iff, hget, Data.mergeAll?_ne_none_iff]
  · rw [lookup_of_mapM hmapM, ← hget, Data.get?]

/-- A rule that no layer mentions has no setting. -/
theorem WellFormed.lookup_of_unmentioned (h : layers.WellFormed) (hload : layers.load = .ok config)
    {rule : String} (hrule : layers.spellings rule = ∅) : config.rules.lookup rule = none := by
  obtain ⟨settings, hsettings, -, hmem, -⟩ := h.rules_of_load hload
  rw [hsettings, Config.lookup_normalizeRules]
  refine lookup_spelled_of_forall_ne _ fun key hkey hspells => ?_
  have hkey' := (hmem key).mp (((byKey_perm settings).map Prod.fst).mem_iff.mp hkey)
  exact Set.eq_empty_iff_forall_notMem.mp hrule key ⟨hkey', hspells⟩

/-- A rule has the setting that layers give it under its greatest spelling. -/
theorem WellFormed.lookup_of_isGreatest (h : layers.WellFormed) (hload : layers.load = .ok config)
    {rule key : String} (hkey : IsGreatest (layers.spellings rule) key) :
    ∃ merged setting, Data.mergeAll? (layers.settingsAt key) = some merged ∧
      RuleSetting.ofData? merged = some setting ∧ config.rules.lookup rule = some setting := by
  obtain ⟨settings, hsettings, hnodup, hmem, hlookup⟩ := h.rules_of_load hload
  have hmem' (k : String) : k ∈ (byKey settings).map Prod.fst ↔ layers.settingsAt k ≠ [] :=
    ((byKey_perm settings).map Prod.fst).mem_iff.trans (hmem k)
  have hspellings : layers.spellings rule =
      {k | k ∈ (byKey settings).map Prod.fst ∧ Naming.normalizeRuleName k = rule} :=
    Set.ext fun k => and_congr_left' (hmem' k).symm
  have hfound := lookup_spelled_of_isGreatest _ (byKey_sorted settings)
    (((byKey_perm settings).map Prod.fst).nodup_iff.mpr hnodup) (hspellings ▸ hkey)
  rw [← Config.lookup_normalizeRules, ← hsettings, lookup_byKey hnodup] at hfound
  obtain ⟨setting, hsetting⟩ := Option.ne_none_iff_exists'.mp
    (mem_keys_iff_lookup_ne_none.mp ((hmem key).mpr hkey.1.1))
  obtain ⟨merged, hmerged, hread⟩ := Option.bind_eq_some_iff.mp ((hlookup key).symm.trans hsetting)
  exact ⟨merged, setting, hmerged, hread, hfound.trans hsetting⟩

/-- A loaded configuration sets no rule twice. -/
theorem nodup_keys_of_load (hload : layers.load = .ok config) :
    (config.rules.map Prod.fst).Nodup := by
  obtain ⟨read, -, rfl⟩ := read_of_load hload
  exact Config.nodup_normalizeRules read.rules

/-- A rule that some layer mentions has a greatest spelling. -/
theorem WellFormed.exists_isGreatest (h : layers.WellFormed) {rule : String}
    (hrule : (layers.spellings rule).Nonempty) : ∃ key, IsGreatest (layers.spellings rule) key := by
  obtain ⟨rules, -, -, hget⟩ := h.rules_merged
  have hkeys : layers.spellings rule ⊆ {key | key ∈ rules.keys} := by
    rintro key ⟨hkey, -⟩
    rwa [Set.mem_ofPred_eq, Data.mem_keys_iff, hget, Data.mergeAll?_ne_none_iff]
  have hfinite := (List.finite_toSet rules.keys).subset hkeys
  obtain ⟨key, hkey, hgreatest⟩ := Set.exists_max_image _ id hfinite hrule
  exact ⟨key, hkey, hgreatest⟩

/-- The highest layer that uses the greatest spelling of a rule sets its level if it sets one. -/
theorem WellFormed.level_of_isGreatest (h : layers.WellFormed) (hload : layers.load = .ok config)
    {rule key : String} (hkey : IsGreatest (layers.spellings rule) key) {value : Data}
    {level : Severity} (hlast : (layers.settingsAt key).getLast? = some value)
    (hlevel : value.severity? = some level) :
    (config.rules.lookup rule).bind RuleSetting.level? = some level := by
  obtain ⟨merged, setting, hmerged, hread, hlookup⟩ := h.lookup_of_isGreatest hload hkey
  obtain ⟨merged', hmerged', hlevel'⟩ := Data.severity?_mergeAll? hlast hlevel
  obtain rfl := Option.some.inj (hmerged.symm.trans hmerged')
  rw [hlookup, Option.bind_some, RuleSetting.level?_of_severity? hlevel' hread]

/-- A rule that all layers spell alike keeps the precedence of the layers. -/
theorem WellFormed.highestDecides (h : layers.WellFormed) (hload : layers.load = .ok config)
    {rule : String} (hone : (layers.spellings rule).Subsingleton) :
    layers.HighestDecides config rule := by
  intro below highest above key value level htables habove hspells hvalue hlevel
  have hlast : (layers.settingsAt key).getLast? = some value := by
    have hnone : above.filterMap (Data.get? key) = [] := by
      refine List.filterMap_eq_nil_iff.mpr fun table htable => ?_
      by_contra hkey
      exact habove table htable key (Data.mem_keys_iff.mpr hkey) hspells
    rw [settingsAt, htables, List.filterMap_append, List.filterMap_cons_some hvalue, hnone,
      List.getLast?_concat]
  have hmem : key ∈ layers.spellings rule :=
    ⟨fun hempty => by simp [hempty] at hlast, hspells⟩
  have hgreatest : IsGreatest (layers.spellings rule) key :=
    ⟨hmem, fun other hother => (hone hother hmem).le⟩
  exact h.level_of_isGreatest hload hgreatest hlast hlevel

/-- **The greatest spelling of a rule decides.** For layers with files of settings, a rule in the
loaded configuration has no setting if no layer mentions it. Else it has what the layers say under
the greatest of the keys that spell it, one layer over the other; so if the highest layer that
mentions this key sets a level there, then that is the level of the rule. This keeps the precedence
of the layers for a rule that they all spell alike. -/
theorem greatest_spelling_decides (layers : ConfigLayers) (h : layers.WellFormed) (config : Config)
    (hload : layers.load = .ok config) (rule : String) :
    (layers.spellings rule = ∅ → config.rules.lookup rule = none) ∧
    ((layers.spellings rule).Nonempty → ∃ key merged setting,
      IsGreatest (layers.spellings rule) key ∧
      Data.mergeAll? (layers.settingsAt key) = some merged ∧
      RuleSetting.ofData? merged = some setting ∧ config.rules.lookup rule = some setting ∧
      ∀ highest level, (layers.settingsAt key).getLast? = some highest →
        highest.severity? = some level →
        (config.rules.lookup rule).bind RuleSetting.level? = some level) ∧
    ((layers.spellings rule).Subsingleton → layers.HighestDecides config rule) := by
  refine ⟨h.lookup_of_unmentioned hload, fun hnonempty => ?_, h.highestDecides hload⟩
  obtain ⟨key, hkey⟩ := h.exists_isGreatest hnonempty
  obtain ⟨merged, setting, hmerged, hread, hlookup⟩ := h.lookup_of_isGreatest hload hkey
  exact ⟨key, merged, setting, hkey, hmerged, hread, hlookup,
    fun highest level => h.level_of_isGreatest hload hkey⟩

/-- A file that sets the level of one rule. -/
private def fileOf (key word : String) : Data := .table [("rules", .table [(key, .text word)])]

private theorem isSettings_fileOf (key word : String) : (fileOf key word).IsSettings := by
  refine ⟨rfl, fun rules hrules => ?_⟩
  obtain rfl := Option.some.inj hrules
  exact List.nodup_singleton key

/-- A rule that the toolchain and the project spell in two ways. -/
private def twoSpellings (environment : List (String × String)) : ConfigLayers where
  toolchain := some (fileOf "no_array_props" "error")
  project := some (fileOf "no-array-props" "off")
  environment := environment

private theorem twoSpellings_wellFormed (environment : List (String × String)) :
    (twoSpellings environment).WellFormed where
  toolchain _ hfile := Option.some.inj hfile ▸ isSettings_fileOf _ _
  project _ hfile := Option.some.inj hfile ▸ isSettings_fileOf _ _

/-- Of the two spellings, the one with `_` comes last. -/
private theorem isGreatest_of_keys {layers : ConfigLayers}
    (hkeys : ∀ table ∈ layers.ruleTables, ∀ key ∈ table.keys,
      key = "no_array_props" ∨ key = "no-array-props")
    (hused : layers.settingsAt "no_array_props" ≠ []) :
    IsGreatest (layers.spellings "no-array-props") "no_array_props" := by
  refine ⟨⟨hused, by decide +kernel⟩, ?_⟩
  rintro key ⟨hkey, -⟩
  obtain ⟨value, hvalue⟩ := List.exists_mem_of_ne_nil _ hkey
  obtain ⟨table, htable, hget⟩ := List.mem_filterMap.mp hvalue
  have hmem := Data.mem_keys_iff.mpr (Option.ne_none_iff_exists'.mpr ⟨value, hget⟩)
  rcases hkeys table htable key hmem with rfl | rfl
  · exact le_rfl
  · decide +kernel

/-- A variable goes over the toolchain, which spells the rule as the variable does, and both go
over the project. -/
theorem variable_over_two_spellings :
    ∃ layers config, layers = twoSpellings [("SWEEPI_RULES__NO_ARRAY_PROPS__LEVEL", "warn")] ∧
      layers.WellFormed ∧ layers.load = .ok config ∧
      (config.rules.lookup "no-array-props").bind RuleSetting.level? = some .warn := by
  obtain ⟨layers, hlayers⟩ :
    ∃ layers, layers = twoSpellings [("SWEEPI_RULES__NO_ARRAY_PROPS__LEVEL", "warn")] := ⟨_, rfl⟩
  have henvironment : Environment.toData layers.environment =
      .table [("rules", .table [("no_array_props", .table [("level", .text "warn")])])] := by
    have hpath : Environment.path? "SWEEPI_RULES__NO_ARRAY_PROPS__LEVEL" =
        some ["rules", "no_array_props", "level"] := by
      decide +kernel
    have hread : ValueText.read "warn" = .text "warn" := rfl
    rw [hlayers, twoSpellings, Environment.toData, List.foldl_cons, List.foldl_nil]
    simp only [hpath, hread]
    rfl
  have htables : layers.ruleTables =
      [.table [("no_array_props", .text "error")], .table [("no-array-props", .text "off")],
        .table [("no_array_props", .table [("level", .text "warn")])]] := by
    rw [ruleTables, stack, henvironment, hlayers]
    rfl
  obtain ⟨config, hload⟩ : ∃ config, layers.load = .ok config := by
    unfold load toolchainDir? merged
    rw [henvironment, hlayers]
    exact ⟨_, rfl⟩
  have hformed : layers.WellFormed := hlayers ▸ twoSpellings_wellFormed _
  have hgreatest : IsGreatest (layers.spellings "no-array-props") "no_array_props" := by
    refine isGreatest_of_keys ?_ ?_
    · rw [htables]
      decide +kernel
    · rw [settingsAt, htables]
      exact List.cons_ne_nil _ _
  obtain ⟨key, merged, setting, hkey, -, -, -, hlevel⟩ :=
    (greatest_spelling_decides layers hformed config hload "no-array-props").2.1 ⟨_, hgreatest.1⟩
  obtain rfl := hkey.unique hgreatest
  have hwarn := hlevel (.table [("level", .text "warn")]) .warn
  refine ⟨layers, config, hlayers, hformed, hload, hwarn ?_ ?_⟩
  · rw [settingsAt, htables]
    rfl
  · decide +kernel

/-- The highest layer that mentions a rule does not decide if a lower one has a greater spelling. -/
theorem lower_layer_decides :
    ∃ config, (twoSpellings []).load = .ok config ∧ (twoSpellings []).WellFormed ∧
      ¬ (twoSpellings []).HighestDecides config "no-array-props" := by
  have htables : (twoSpellings []).ruleTables =
      [.table [("no_array_props", .text "error")], .table [("no-array-props", .text "off")]] := rfl
  obtain ⟨config, hload⟩ : ∃ config, (twoSpellings []).load = .ok config := ⟨_, rfl⟩
  have hformed := twoSpellings_wellFormed []
  have hgreatest : IsGreatest ((twoSpellings []).spellings "no-array-props") "no_array_props" := by
    refine isGreatest_of_keys ?_ ?_
    · rw [htables]
      decide +kernel
    · rw [settingsAt, htables]
      exact List.cons_ne_nil _ _
  have herror : (config.rules.lookup "no-array-props").bind RuleSetting.level? = some .error :=
    hformed.level_of_isGreatest hload hgreatest rfl rfl
  refine ⟨config, hload, hformed, fun hdecides => ?_⟩
  have hoff := hdecides [.table [("no_array_props", .text "error")]]
    (.table [("no-array-props", .text "off")]) [] "no-array-props" (.text "off") .off htables
    (fun _ htable => absurd htable List.not_mem_nil) (by decide +kernel) rfl rfl
  rw [herror] at hoff
  cases hoff

end ConfigLayers

end TsxLint
