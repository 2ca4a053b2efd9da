import Mathlib.Data.List.Nodup
import Mathlib.Data.List.Forall2
import TsxLint.Linter
import TsxLint.Proofs.Config.Entries

/-!
# The rules that a configuration chooses

Presets and overrides settle a level and options for every rule. A configuration gives a linter just
if it names presets and rules that there are, and if every rule that is on takes its options; the
linter then has the rules that are on, in the order in which rules run. Since no rule is in two
presets, the order of the presets and their number shows in one place only: of several presets that
do not exist, the first one is blamed.

## Main definitions

* `Linter.presetRule?`, `Linter.effective`: the setting of a rule.
* `Linter.Chosen`: a rule as a linter runs it.

## Main results

* `Linter.presetSettings_eq`, `Linter.overrideSettings_eq`: what presets and overrides give.
* `Linter.ofConfig_eq`: what a configuration gives, step by step.
* `Linter.presets_and_overrides_resolve`: when a configuration gives a linter, and which.
-/

namespace TsxLint

namespace Linter

/-! ### What presets say -/

/-- The rules of all presets in a list, one preset after the other. -/
def presetRules (presets : List String) : List PresetRule :=
  presets.flatMap fun name => (Preset.find? name).getD []

/-- How presets set a rule; later ones replace earlier ones. -/
def presetRule? (presets : List String) (rule : String) : Option PresetRule :=
  (presetRules presets).reverse.find? (·.name == rule)

/-- The level and the options of a rule. The override of the rule says it, else the presets do; a
rule of which neither says anything is off. -/
def effective (config : Config) (rule : String) : Setting :=
  let override := config.rules.lookup rule
  let preset := presetRule? config.lint.presets rule
  ((override.bind RuleSetting.level?).getD ((preset.map PresetRule.level).getD .off),
    (override.bind RuleSetting.options?).or (preset.bind PresetRule.options))

theorem find?_preset {name : String} {rules : List PresetRule}
    (h : Preset.find? name = some rules) :
    rules = Preset.core ∨ rules = Preset.react := by
  unfold Preset.find? at h
  split at h
  · exact .inl (Option.some.inj h).symm
  · exact .inr (Option.some.inj h).symm
  · cases h

/-- No two rules of the presets have the same name. -/
theorem nodup_preset_names : ((Preset.core ++ Preset.react).map PresetRule.name).Nodup := by
  decide +kernel

theorem mem_presetRules_iff {presets : List String} {r : PresetRule} :
    r ∈ presetRules presets ↔ ∃ name ∈ presets, r ∈ (Preset.find? name).getD [] :=
  List.mem_flatMap

theorem mem_all_of_mem_presetRules {presets : List String} {r : PresetRule}
    (h : r ∈ presetRules presets) : r ∈ Preset.core ++ Preset.react := by
  obtain ⟨name, -, hr⟩ := mem_presetRules_iff.mp h
  cases hfind : Preset.find? name with
  | none => simp [hfind] at hr
  | some rules =>
    rw [hfind, Option.getD_some] at hr
    rcases find?_preset hfind with rfl | rfl
    · exact List.mem_append_left _ hr
    · exact List.mem_append_right _ hr

theorem mem_of_presetRule? {presets : List String} {rule : String} {r : PresetRule}
    (h : presetRule? presets rule = some r) : r ∈ presetRules presets ∧ r.name = rule := by
  have hname := List.find?_some h
  exact ⟨List.mem_reverse.mp (List.mem_of_find?_eq_some h), beq_iff_eq.mp hname⟩

/-- A preset sets a rule if it lists it, whatever the other presets are. -/
theorem presetRule?_eq_some_iff {presets : List String} {rule : String} {r : PresetRule} :
    presetRule? presets rule = some r ↔ r ∈ presetRules presets ∧ r.name = rule := by
  refine ⟨mem_of_presetRule?, ?_⟩
  rintro ⟨hr, rfl⟩
  have hsome : (presetRule? presets r.name).isSome :=
    List.find?_isSome.mpr ⟨r, List.mem_reverse.mpr hr, beq_self_eq_true _⟩
  obtain ⟨found, hfound⟩ := Option.isSome_iff_exists.mp hsome
  obtain ⟨hmem, hname⟩ := mem_of_presetRule? hfound
  rw [hfound, List.inj_on_of_nodup_map nodup_preset_names (mem_all_of_mem_presetRules hmem)
    (mem_all_of_mem_presetRules hr) hname]

/-- Only which presets are in the list matters, not their order or number. -/
theorem presetRule?_congr {presets presets' : List String}
    (h : ∀ name, name ∈ presets' ↔ name ∈ presets) (rule : String) :
    presetRule? presets' rule = presetRule? presets rule := by
  refine Option.ext fun r => ?_
  rw [presetRule?_eq_some_iff, presetRule?_eq_some_iff, mem_presetRules_iff, mem_presetRules_iff]
  simp only [h]

/-- The settings of rules by presets, by the names of the rules. -/
def presetEntries (rules : List PresetRule) : List (String × Setting) :=
  rules.map fun r => (r.name, (r.level, r.options))

/-- Presets are applied until one does not exist. -/
theorem presetSettings_eq (presets : List String) :
    presetSettings presets =
      match presets.find? fun name => (Preset.find? name).isNone with
      | some name => .error (.unknownPreset name)
      | none => .ok ((presetEntries (presetRules presets)).foldl
          (fun kept e => setEntry kept e.1 e.2) []) := by
  rw [presetSettings]
  -- The settings so far are those of the presets before.
  generalize ([] : List (String × Setting)) = settings
  induction presets generalizing settings with
  | nil => rfl
  | cons name presets ih =>
    rw [List.foldlM_cons]
    cases hfind : Preset.find? name with
    | none => rw [List.find?_cons_of_pos (by simp [hfind])]; rfl
    | some rules =>
      have hrules : presetEntries (presetRules (name :: presets)) =
          presetEntries rules ++ presetEntries (presetRules presets) := by
        rw [presetRules, List.flatMap_cons, hfind, Option.getD_some]
        exact List.map_append
      have hstep : (presetEntries rules).foldl (fun kept e => setEntry kept e.1 e.2) settings =
          rules.foldl (fun kept r => setEntry kept r.name (r.level, r.options)) settings :=
        List.foldl_map
      rw [List.find?_cons_of_neg (by simp [hfind]), hrules, List.foldl_append, hstep]
      exact ih _

theorem lookup_presetEntries (rules : List PresetRule) (rule : String) :
    (presetEntries rules).lookup rule =
      (rules.find? (·.name == rule)).map fun r => (r.level, r.options) := by
  induction rules with
  | nil => rfl
  | cons r rules ih =>
    rw [presetEntries, List.map_cons]
    by_cases h : rule = r.name
    · rw [h, List.lookup_cons_self, List.find?_cons_of_pos (by simp)]
      rfl
    · have hne : r.name ≠ rule := fun heq => h heq.symm
      rw [List.lookup_cons, beq_eq_false_iff_ne.mpr h, List.find?_cons_of_neg (by simpa using hne)]
      exact ih

/-- Presets that exist leave the setting of the last one that has the rule. -/
theorem lookup_presetSettings (presets : List String) (rule : String) :
    ((presetEntries (presetRules presets)).foldl (fun kept e => setEntry kept e.1 e.2) []).lookup
      rule = (presetRule? presets rule).map fun r => (r.level, r.options) := by
  rw [lookup_foldl_setEntry, List.lookup_nil, Option.or_none, presetEntries, ← List.map_reverse]
  exact lookup_presetEntries _ rule

/-! ### What overrides say -/

theorem find?_rule_eq_some {name : String} {rule : Rule} (h : Rule.find? name = some rule) :
    rule.name = name := by
  have hname := List.find?_some h
  exact beq_iff_eq.mp hname

/-- Overrides are applied until one is of no rule. -/
theorem overrideSettings_eq (settings : List (String × Setting))
    (overrides : List (String × RuleSetting)) :
    overrideSettings settings overrides =
      match overrides.find? fun e => (Rule.find? e.1).isNone with
      | some e => .error (.unknownRule e.1)
      | none => .ok (overrides.foldl (fun settings e => setEntry settings e.1
          (Setting.override ((settings.lookup e.1).getD (.off, none)) e.2)) settings) := by
  rw [overrideSettings]
  induction overrides generalizing settings with
  | nil => rfl
  | cons e overrides ih =>
    rw [List.foldlM_cons]
    cases hfind : Rule.find? e.1 with
    | none => rw [List.find?_cons_of_pos (by simp [hfind])]; simp only [hfind]; rfl
    | some rule =>
      rw [List.find?_cons_of_neg (by simp [hfind])]
      simp only [hfind, find?_rule_eq_some hfind]
      exact ih _

/-- Where keys are distinct, each override goes over what was there before all of them. -/
theorem lookup_overridden {overrides : List (String × RuleSetting)}
    (hkeys : (overrides.map Prod.fst).Nodup) (settings : List (String × Setting)) (rule : String) :
    ((overrides.foldl (fun settings e => setEntry settings e.1
      (Setting.override ((settings.lookup e.1).getD (.off, none)) e.2)) settings).lookup rule) =
      match overrides.lookup rule with
      | some override => some (Setting.override ((settings.lookup rule).getD (.off, none)) override)
      | none => settings.lookup rule := by
  induction overrides generalizing settings with
  | nil => rfl
  | cons e overrides ih =>
    rw [List.map_cons, List.nodup_cons] at hkeys
    rw [List.foldl_cons, ih hkeys.2, lookup_setEntry]
    by_cases h : rule = e.1
    · have hnone : overrides.lookup e.1 = none := by
        by_contra hsome
        exact hkeys.1 (mem_keys_iff_lookup_ne_none.mpr hsome)
      rw [h, hnone, if_pos rfl, List.lookup_cons_self]
    · rw [if_neg h, List.lookup_cons, beq_eq_false_iff_ne.mpr h]

/-- The settings of all rules after the overrides. -/
def overridden (config : Config) : List (String × Setting) :=
  config.rules.foldl (fun settings e => setEntry settings e.1
      (Setting.override ((settings.lookup e.1).getD (.off, none)) e.2))
    ((presetEntries (presetRules config.lint.presets)).foldl
      (fun kept e => setEntry kept e.1 e.2) [])

/-- The setting of a rule is the effective one; a rule without a setting is off. -/
theorem lookup_overridden_getD {config : Config} (hkeys : (config.rules.map Prod.fst).Nodup)
    (rule : String) :
    ((overridden config).lookup rule).getD (.off, none) = effective config rule := by
  rw [overridden, lookup_overridden hkeys, lookup_presetSettings]
  unfold effective
  cases config.rules.lookup rule with
  | none => cases presetRule? config.lint.presets rule <;> rfl
  | some override => cases presetRule? config.lint.presets rule <;> rfl

theorem settings_eq (config : Config) :
    settings config =
      match config.lint.presets.find? fun name => (Preset.find? name).isNone with
      | some name => .error (.unknownPreset name)
      | none =>
        match config.rules.find? fun e => (Rule.find? e.1).isNone with
        | some e => .error (.unknownRule e.1)
        | none => .ok (overridden config) := by
  rw [settings, presetSettings_eq]
  cases config.lint.presets.find? fun name => (Preset.find? name).isNone with
  | some name => rfl
  | none => exact overrideSettings_eq _ _

/-! ### Which rules are chosen -/

/-- Whether a linter of a configuration runs a rule as `active`: at its effective level and with the
check that its effective options give. -/
structure Chosen (config : Config) (active : ActiveRule) (rule : Rule) : Prop where
  rule_eq : active.rule = rule
  severity : active.severity = (effective config rule.name).1
  check : rule.configure ((effective config rule.name).2.getD .null) = some active.check

/-- A rule as its effective setting chooses it. -/
def choose (config : Config) (rule : Rule) : Except ConfigError (Option ActiveRule) :=
  if (effective config rule.name).1 = .off then .ok none
  else
    match rule.configure ((effective config rule.name).2.getD .null) with
    | some check => .ok (some ⟨rule, (effective config rule.name).1, check⟩)
    | none => .error (.invalidOptions rule.name)

theorem activate?_eq_choose {config : Config} (hkeys : (config.rules.map Prod.fst).Nodup)
    (rule : Rule) : activate? (overridden config) rule = choose config rule := by
  have heffective := lookup_overridden_getD hkeys rule.name
  rw [choose, ← heffective, activate?]
  cases (overridden config).lookup rule.name with
  | none => rfl
  | some setting =>
    obtain ⟨level, options⟩ := setting
    cases level <;> rfl

/-- What a configuration gives: presets that do not exist are blamed first, then overrides of rules
that do not exist, and then options that a rule refuses. -/
theorem ofConfig_eq {config : Config} (hkeys : (config.rules.map Prod.fst).Nodup) :
    ofConfig config =
      match config.lint.presets.find? fun name => (Preset.find? name).isNone with
      | some name => .error (.unknownPreset name)
      | none =>
        match config.rules.find? fun e => (Rule.find? e.1).isNone with
        | some e => .error (.unknownRule e.1)
        | none => (Rule.all.mapM (choose config)).map fun active => ⟨active.filterMap id⟩ := by
  rw [ofConfig, settings_eq]
  cases config.lint.presets.find? fun name => (Preset.find? name).isNone with
  | some name => rfl
  | none =>
    cases config.rules.find? fun e => (Rule.find? e.1).isNone with
    | some e => rfl
    | none =>
      have hchoose : activate? (overridden config) = choose config :=
        funext fun rule => activate?_eq_choose hkeys rule
      simp only [bind, Except.bind, hchoose]
      cases Rule.all.mapM (choose config) <;> rfl

/-! ### When a configuration gives a linter -/

theorem bind_eq_ok_iff {ε α β : Type} {x : Except ε α} {f : α → Except ε β} {b : β} :
    x >>= f = .ok b ↔ ∃ a, x = .ok a ∧ f a = .ok b := by
  cases x with
  | error e => simp [bind, Except.bind]
  | ok a => simp [bind, Except.bind]

theorem mapM_eq_ok_iff {ε α β : Type} {f : α → Except ε β} {l : List α} {r : List β} :
    l.mapM f = .ok r ↔ List.Forall₂ (fun a b => f a = .ok b) l r := by
  induction l generalizing r with
  | nil =>
    rw [List.mapM_nil, List.forall₂_nil_left_iff]
    exact ⟨fun h => (Except.ok.inj h).symm, fun h => congrArg Except.ok h.symm⟩
  | cons a l ih =>
    rw [List.mapM_cons, bind_eq_ok_iff, List.forall₂_cons_left_iff]
    constructor
    · rintro ⟨b, hb, h⟩
      obtain ⟨rest, hrest, h⟩ := bind_eq_ok_iff.mp h
      exact ⟨b, rest, hb, ih.mp hrest, (Except.ok.inj h).symm⟩
    · rintro ⟨b, rest, hb, hrest, rfl⟩
      exact ⟨b, hb, bind_eq_ok_iff.mpr ⟨rest, ih.mpr hrest, rfl⟩⟩

theorem exists_mapM_eq_ok_iff {ε α β : Type} {f : α → Except ε β} {l : List α} :
    (∃ r, l.mapM f = .ok r) ↔ ∀ a ∈ l, ∃ b, f a = .ok b := by
  simp only [mapM_eq_ok_iff]
  induction l with
  | nil => simp
  | cons a l ih =>
    rw [List.forall_mem_cons, ← ih]
    constructor
    · rintro ⟨_, hall⟩
      obtain ⟨b, rest, hb, hrest, rfl⟩ := List.forall₂_cons_left_iff.mp hall
      exact ⟨⟨b, hb⟩, rest, hrest⟩
    · rintro ⟨⟨b, hb⟩, rest, hrest⟩
      exact ⟨b :: rest, .cons hb hrest⟩

variable {config : Config}

theorem exists_choose_eq_ok_iff {rule : Rule} :
    (∃ found, choose config rule = .ok found) ↔
      ((effective config rule.name).1 ≠ .off →
        (rule.configure ((effective config rule.name).2.getD .null)).isSome) := by
  unfold choose
  by_cases hoff : (effective config rule.name).1 = .off
  · rw [if_pos hoff]
    exact ⟨fun _ hon => absurd hoff hon, fun _ => ⟨none, rfl⟩⟩
  · rw [if_neg hoff]
    cases rule.configure ((effective config rule.name).2.getD .null) with
    | none => simp [hoff]
    | some check => simp

/-- The rules that are on are the ones that are found, each at its place. -/
theorem chosen_of_forall₂ {rules : List Rule} {found : List (Option ActiveRule)}
    (h : List.Forall₂ (fun rule active => choose config rule = .ok active) rules found) :
    List.Forall₂ (Chosen config) (found.filterMap id)
      (rules.filter fun rule => (effective config rule.name).1 ≠ .off) := by
  induction h with
  | nil => exact .nil
  | @cons rule active rules found hchoose _ ih =>
    rw [choose] at hchoose
    by_cases hoff : (effective config rule.name).1 = .off
    · rw [if_pos hoff] at hchoose
      obtain rfl := Except.ok.inj hchoose
      rw [List.filterMap_cons_none rfl, List.filter_cons_of_neg (by simp [hoff])]
      exact ih
    · rw [if_neg hoff] at hchoose
      cases hcheck : rule.configure ((effective config rule.name).2.getD .null) with
      | none => rw [hcheck] at hchoose; cases hchoose
      | some check =>
        rw [hcheck] at hchoose
        obtain rfl := Except.ok.inj hchoose
        rw [List.filter_cons_of_pos (by simp [hoff])]
        exact .cons ⟨rfl, rfl, hcheck⟩ ih

theorem names_of_forall₂ {active : List ActiveRule} {rules : List Rule}
    (h : List.Forall₂ (Chosen config) active rules) :
    active.map (·.rule.name) = rules.map Rule.name := by
  induction h with
  | nil => rfl
  | cons hchosen _ ih => rw [List.map_cons, List.map_cons, hchosen.rule_eq, ih]

/-- No two rules have the same name. -/
theorem nodup_rule_names : (Rule.all.map Rule.name).Nodup := by
  decide +kernel

theorem find?_isNone_eq_none_iff {α β : Type} {find : α → Option β} {l : List α} :
    (l.find? fun a => (find a).isNone) = none ↔ ∀ a ∈ l, (find a).isSome := by
  simp [List.find?_eq_none, Option.isSome_iff_ne_none]

/-- When a configuration gives a linter, it is that of the chosen rules. -/
theorem ofConfig_eq_ok_iff (hkeys : (config.rules.map Prod.fst).Nodup) {linter : Linter} :
    ofConfig config = .ok linter ↔
      (∀ name ∈ config.lint.presets, (Preset.find? name).isSome) ∧
      (∀ e ∈ config.rules, (Rule.find? e.1).isSome) ∧
      ∃ found, Rule.all.mapM (choose config) = .ok found ∧ ⟨found.filterMap id⟩ = linter := by
  rw [ofConfig_eq hkeys, ← find?_isNone_eq_none_iff, ← find?_isNone_eq_none_iff]
  cases config.lint.presets.find? fun name => (Preset.find? name).isNone with
  | some name => exact ⟨nofun, fun h => nomatch h.1⟩
  | none =>
    cases config.rules.find? fun e => (Rule.find? e.1).isNone with
    | some e => exact ⟨nofun, fun h => nomatch h.2.1⟩
    | none =>
      cases Rule.all.mapM (choose config) with
      | error e => exact ⟨nofun, fun ⟨_, _, _, h, _⟩ => nomatch h⟩
      | ok found =>
        constructor
        · intro h
          exact ⟨rfl, rfl, found, rfl, Except.ok.inj h⟩
        · rintro ⟨-, -, found', hfound, rfl⟩
          obtain rfl := Except.ok.inj hfound
          rfl

/-- Only the overrides and which presets are configured matter to the setting of a rule. -/
theorem effective_congr {config' : Config} (hrules : config'.rules = config.rules)
    (hpresets : ∀ name, name ∈ config'.lint.presets ↔ name ∈ config.lint.presets) :
    effective config' = effective config := by
  funext rule
  rw [effective, effective, hrules, presetRule?_congr hpresets]

/-- **Presets and overrides resolve to one setting for every rule.** A configuration whose overrides
are of distinct rules gives a linter just if all its presets exist, all its overrides are of rules
that exist, and every rule that is on by its effective setting takes its effective options. The
linter then has the rules that are on, each once and in the order in which rules run, with these
levels and options. The same presets in another order, or some of them more than once, give the
same, except that the first preset that does not exist is blamed. -/
theorem presets_and_overrides_resolve (config : Config)
    (hkeys : (config.rules.map Prod.fst).Nodup) :
    ((∃ linter, ofConfig config = .ok linter) ↔
      (∀ name ∈ config.lint.presets, (Preset.find? name).isSome) ∧
      (∀ e ∈ config.rules, (Rule.find? e.1).isSome) ∧
      ∀ rule ∈ Rule.all, (effective config rule.name).1 ≠ .off →
        (rule.configure ((effective config rule.name).2.getD .null)).isSome) ∧
    (∀ linter, ofConfig config = .ok linter →
      List.Forall₂ (Chosen config) linter.rules
        (Rule.all.filter fun rule => (effective config rule.name).1 ≠ .off) ∧
      linter.ruleNames.Nodup) ∧
    ∀ config' : Config, config'.rules = config.rules →
      (∀ name, name ∈ config'.lint.presets ↔ name ∈ config.lint.presets) →
      ofConfig config' =
        match config'.lint.presets.find? fun name => (Preset.find? name).isNone with
        | some name => .error (.unknownPreset name)
        | none => ofConfig config := by
  refine ⟨?_, fun linter hlinter => ?_, fun config' hrules hpresets => ?_⟩
  · have hchoose : (∃ found, Rule.all.mapM (choose config) = .ok found) ↔
        ∀ rule ∈ Rule.all, (effective config rule.name).1 ≠ .off →
          (rule.configure ((effective config rule.name).2.getD .null)).isSome := by
      rw [exists_mapM_eq_ok_iff]
      exact forall₂_congr fun rule _ => exists_choose_eq_ok_iff
    rw [← hchoose]
    constructor
    · rintro ⟨linter, hlinter⟩
      obtain ⟨hpresets, hrules, found, hfound, -⟩ := (ofConfig_eq_ok_iff hkeys).mp hlinter
      exact ⟨hpresets, hrules, found, hfound⟩
    · rintro ⟨hpresets, hrules, found, hfound⟩
      exact ⟨_, (ofConfig_eq_ok_iff hkeys).mpr ⟨hpresets, hrules, found, hfound, rfl⟩⟩
  · obtain ⟨-, -, found, hfound, rfl⟩ := (ofConfig_eq_ok_iff hkeys).mp hlinter
    have hchosen := chosen_of_forall₂ (mapM_eq_ok_iff.mp hfound)
    refine ⟨hchosen, ?_⟩
    rw [ruleNames, names_of_forall₂ hchosen]
    exact (List.filter_sublist.map _).nodup nodup_rule_names
  · have hkeys' : (config'.rules.map Prod.fst).Nodup := hrules ▸ hkeys
    have hchoose : choose config' = choose config := by
      funext rule
      rw [choose, choose, effective_congr hrules hpresets]
    rw [ofConfig_eq hkeys', ofConfig_eq hkeys, hchoose, hrules]
    cases hfirst : config'.lint.presets.find? fun name => (Preset.find? name).isNone with
    | some name => rfl
    | none =>
      have hall := find?_isNone_eq_none_iff.mp hfirst
      have hnone : (config.lint.presets.find? fun name => (Preset.find? name).isNone) = none :=
        find?_isNone_eq_none_iff.mpr fun name hname => hall name ((hpresets name).mpr hname)
      rw [hnone]

/-- Overrides that turn a rule off, turn another on, and give new options to a third. -/
private def overriding (presets : List String) : Config where
  lint := { presets := presets }
  rules := [("max-params", .parts none (some (.table [("max", .whole 1)]))),
    ("no-inline-call-expressions", .bare .warn), ("prefer-const", .bare .off)]

/-- All rules of the presets but one, and one more, are chosen from them in either order. -/
theorem overriding_resolves :
    ((overriding ["react", "core", "core"]).rules.map Prod.fst).Nodup ∧
    ofConfig (overriding ["react", "core", "core"]) = ofConfig (overriding ["core", "react"]) ∧
    ∃ linter, ofConfig (overriding ["react", "core", "core"]) = .ok linter ∧
      linter.rules.length = 27 := by
  have hkeys (presets : List String) : ((overriding presets).rules.map Prod.fst).Nodup := by
    have hnames : ["max-params", "no-inline-call-expressions", "prefer-const"].Nodup := by decide
    exact hnames
  have hreordered := presets_and_overrides_resolve (overriding ["core", "react"]) (hkeys _)
  obtain ⟨hgives, hchosen, -⟩ :=
    presets_and_overrides_resolve (overriding ["react", "core", "core"]) (hkeys _)
  obtain ⟨linter, hlinter⟩ := hgives.mpr ⟨by decide +kernel, by decide +kernel, by decide +kernel⟩
  refine ⟨hkeys _, ?_, linter, hlinter, ?_⟩
  · exact hreordered.2.2 (overriding ["react", "core", "core"]) rfl
      fun name => by simp [overriding, or_comm]
  · rw [(hchosen linter hlinter).1.length_eq]
    decide +kernel

/-- Of two presets that do not exist, the one that stands first is blamed. -/
theorem order_of_unknown_presets :
    ["loose", "strict"].Perm ["strict", "loose"] ∧
    ofConfig (overriding ["strict", "loose"]) = .error (.unknownPreset "strict") ∧
    ofConfig (overriding ["loose", "strict"]) = .error (.unknownPreset "loose") :=
  ⟨List.Perm.swap _ _ _, rfl, rfl⟩

end Linter

end TsxLint
