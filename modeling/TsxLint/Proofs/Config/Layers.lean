import Mathlib.Data.List.DropRight
import TsxLint.Config.Layers
import TsxLint.Proofs.Data.Lookup

/-!
# What layers say about rules

A layer goes over the layers below it table by table and key by key. So what the merged
configuration says under the key of a rule is what the layers say under that key, one over the
other. A layer with something else in the place of the table of rules hides the tables below it.

## Main definitions

* `Data.mergeAll?`: values one over the other.
* `Data.IsSettings`: the data of a file of settings.
* `ConfigLayers.ruleTables`, `ConfigLayers.settingsAt`: what the layers say about rules.

## Main results

* `Data.get?_merge`: tables are merged key by key.
* `Environment.toData_isSettings`: variables give data like that of a file.
* `ConfigLayers.WellFormed.rules_merged`: what the merged configuration says about rules.
-/

namespace TsxLint

namespace Data

/-- Whether data is a table. -/
def isTable : Data → Bool
  | table _ => true
  | _ => false

/-- The keys of a table. -/
def keys : Data → List String
  | table entries => entries.map Prod.fst
  | _ => []

theorem isTable_iff {data : Data} : data.isTable = true ↔ ∃ entries, data = table entries := by
  cases data <;> simp [isTable]

theorem get?_of_not_isTable {data : Data} (h : ¬ data.isTable) (key : String) :
    data.get? key = none := by
  cases data with
  | table entries => exact absurd rfl h
  | _ => rfl

theorem mem_keys_iff {data : Data} {key : String} : key ∈ data.keys ↔ data.get? key ≠ none := by
  cases data with
  | table entries => exact mem_keys_iff_lookup_ne_none
  | _ => simp [keys, get?]

/-! ### Merging two values -/

theorem lookup_mergeEntries (upper base : List (String × Data)) (key : String) :
    (mergeEntries upper base).lookup key = (base.lookup key).map fun value =>
      match upper.lookup key with
      | some above => value.merge above
      | none => value := by
  induction base with
  | nil => rfl
  | cons e base ih =>
    rw [mergeEntries]
    by_cases h : key = e.1
    · rw [h, List.lookup_cons_self, List.lookup_cons_self]
      rfl
    · have hne : (key == e.1) = false := beq_eq_false_iff_ne.mpr h
      rw [List.lookup_cons, List.lookup_cons, hne, ih]

theorem keys_mergeEntries (upper base : List (String × Data)) :
    (mergeEntries upper base).map Prod.fst = base.map Prod.fst := by
  induction base with
  | nil => rfl
  | cons e base ih => rw [mergeEntries, List.map_cons, List.map_cons, ih]

/-- A value over one that is no table replaces it. -/
theorem merge_of_not_isTable_left {base : Data} (h : ¬ base.isTable) (upper : Data) :
    base.merge upper = upper := by
  cases base with
  | table entries => exact absurd rfl h
  | _ => simp only [merge]

/-- A value that is no table replaces what is below it. -/
theorem merge_of_not_isTable_right (base : Data) {upper : Data} (h : ¬ upper.isTable) :
    base.merge upper = upper := by
  cases upper with
  | table entries => exact absurd rfl h
  | _ => cases base <;> simp only [merge]

theorem isTable_merge (base : Data) {upper : Data} (h : upper.isTable) :
    (base.merge upper).isTable := by
  obtain ⟨above, rfl⟩ := isTable_iff.mp h
  by_cases hbase : base.isTable
  · obtain ⟨below, rfl⟩ := isTable_iff.mp hbase
    rw [merge, isTable]
  · rwa [merge_of_not_isTable_left hbase]

/-- Tables are merged key by key. -/
theorem get?_merge (base : Data) {upper : Data} (hupper : upper.isTable) (key : String) :
    (base.merge upper).get? key = (base.get? key).merge merge (upper.get? key) := by
  by_cases hbase : base.isTable
  · obtain ⟨below, rfl⟩ := isTable_iff.mp hbase
    obtain ⟨above, rfl⟩ := isTable_iff.mp hupper
    simp only [merge, get?, List.lookup_append, lookup_mergeEntries]
    rw [lookup_filter fun k => !below.any fun b => b.1 == k]
    cases hbelow : below.lookup key with
    | some value => cases above.lookup key <;> rfl
    | none =>
      have hnew : below.any (fun b => b.1 == key) = false := by
        rw [List.any_eq_false]
        intro b hb
        simpa [BEq.comm] using List.lookup_eq_none_iff.mp hbelow b hb
      simp [hnew]
  · rw [merge_of_not_isTable_left hbase, get?_of_not_isTable hbase, Option.merge_none_left]

theorem nodup_keys_merge {base upper : Data} (hbase : base.keys.Nodup) (hupper : upper.keys.Nodup) :
    (base.merge upper).keys.Nodup := by
  by_cases hupper' : upper.isTable
  · by_cases hbase' : base.isTable
    · obtain ⟨below, rfl⟩ := isTable_iff.mp hbase'
      obtain ⟨above, rfl⟩ := isTable_iff.mp hupper'
      rw [merge, keys, List.map_append, keys_mergeEntries, List.nodup_append]
      refine ⟨hbase, (List.filter_sublist.map _).nodup hupper, ?_⟩
      rintro _ hbelow _ habove rfl
      obtain ⟨b, hb, hkey⟩ := List.mem_map.mp hbelow
      obtain ⟨e, he, rfl⟩ := List.mem_map.mp habove
      have hnew := (List.mem_filter.mp he).2
      simp only [Bool.not_eq_true', List.any_eq_false] at hnew
      exact hnew b hb (beq_iff_eq.mpr hkey)
    · rwa [merge_of_not_isTable_left hbase']
  · rwa [merge_of_not_isTable_right base hupper']

/-! ### Merging several values -/

/-- Values one over the other, from the lowest to the highest. -/
def mergeAll? : List Data → Option Data
  | [] => none
  | lowest :: others => some (others.foldl merge lowest)

theorem mergeAll?_ne_none_iff {values : List Data} : mergeAll? values ≠ none ↔ values ≠ [] := by
  cases values <;> simp [mergeAll?]

theorem mergeAll?_concat (values : List Data) (highest : Data) :
    mergeAll? (values ++ [highest]) = (mergeAll? values).merge merge (some highest) := by
  cases values with
  | nil => rfl
  | cons lowest others =>
    rw [List.cons_append, mergeAll?, mergeAll?, List.foldl_append, Option.merge_some_some]
    rfl

/-- What tables say under a key, the higher ones over the lower ones, if only what stands over the
last value that is no table counts. -/
theorem get?_foldl_merge (values : List Data) (key : String) :
    (values.foldl merge (table [])).get? key =
      mergeAll? ((values.rtakeWhile isTable).filterMap (get? key)) := by
  induction values using List.reverseRecOn with
  | nil => rfl
  | append_singleton values highest ih =>
    rw [List.foldl_append, List.foldl_cons, List.foldl_nil]
    by_cases h : highest.isTable
    · rw [get?_merge _ h, ih, List.rtakeWhile_concat_pos _ _ _ h, List.filterMap_append]
      cases hkey : highest.get? key with
      | none => simp [hkey]
      | some value => rw [List.filterMap_cons_some hkey, List.filterMap_nil, mergeAll?_concat]
    · rw [merge_of_not_isTable_right _ h, get?_of_not_isTable h, List.rtakeWhile_concat_neg _ _ _ h]
      rfl

/-- What layers say under a key on top of what stands there below them. -/
theorem get?_foldl_merge_of_isTable {layers : List Data} (hlayers : ∀ layer ∈ layers, layer.isTable)
    {base value : Data} {key : String} (hbase : base.get? key = some value) :
    (layers.foldl merge base).get? key =
      some ((layers.filterMap (get? key)).foldl merge value) := by
  induction layers generalizing base value with
  | nil => exact hbase
  | cons layer layers ih =>
    have hlayers' : ∀ layer ∈ layers, layer.isTable := fun l hl => hlayers l (.tail _ hl)
    have hmerge := get?_merge base (hlayers layer List.mem_cons_self) key
    rw [hbase] at hmerge
    rw [List.foldl_cons]
    cases hkey : layer.get? key with
    | none =>
      rw [hkey, Option.merge_none_right] at hmerge
      rw [ih hlayers' hmerge, List.filterMap_cons_none hkey]
    | some above =>
      rw [hkey, Option.merge_some_some] at hmerge
      rw [ih hlayers' hmerge, List.filterMap_cons_some hkey, List.foldl_cons]

/-! ### Files of settings -/

/-- The data of a file of settings: a table, in which the table of rules names no key twice. -/
structure IsSettings (data : Data) : Prop where
  isTable : data.isTable
  nodup : ∀ rules, data.get? "rules" = some rules → rules.keys.Nodup

/-- A file of settings over another is like one file. -/
theorem IsSettings.merge {base upper : Data} (hbase : base.IsSettings) (hupper : upper.IsSettings) :
    (base.merge upper).IsSettings := by
  refine ⟨isTable_merge base hupper.isTable, fun rules hrules => ?_⟩
  rw [get?_merge base hupper.isTable] at hrules
  cases hbelow : base.get? "rules" with
  | none =>
    rw [hbelow, Option.merge_none_left] at hrules
    exact hupper.nodup rules hrules
  | some below =>
    cases habove : upper.get? "rules" with
    | none =>
      rw [hbelow, habove, Option.merge_none_right] at hrules
      exact Option.some.inj hrules ▸ hbase.nodup below hbelow
    | some above =>
      rw [hbelow, habove, Option.merge_some_some] at hrules
      obtain rfl := Option.some.inj hrules
      exact nodup_keys_merge (hbase.nodup below hbelow) (hupper.nodup above habove)

theorem IsSettings.foldl_merge {layers : List Data} (hlayers : ∀ layer ∈ layers, layer.IsSettings)
    {base : Data} (hbase : base.IsSettings) : (layers.foldl Data.merge base).IsSettings := by
  induction layers generalizing base with
  | nil => exact hbase
  | cons layer layers ih =>
    exact ih (fun l hl => hlayers l (.tail _ hl)) (hbase.merge (hlayers layer List.mem_cons_self))

end Data

/-! ### Variables -/

namespace ValueText

theorem keys_fraction? {cs : List Char} {value : Data} (h : fraction? cs = some value) :
    value.keys = [] := by
  simp only [fraction?] at h
  split at h
  · obtain ⟨exponent, -, h⟩ := Option.bind_eq_some_iff.mp h
    obtain ⟨mantissa, -, h⟩ := Option.bind_eq_some_iff.mp h
    split at h
    · cases h; rfl
    · cases h; rfl
  · cases h

/-- A text without quotes stands for no table. -/
theorem keys_plain (cs : List Char) : (plain cs).keys = [] := by
  simp only [plain]
  split
  · rename_i value h
    split at h
    · exact keys_fraction? h
    · cases h
  · split <;> rfl

/-- A table that is read names no key twice. -/
theorem nodup_entries? {fuel : Nat} {cs rest : List Char} {entries : List (String × Data)}
    (h : entries? fuel cs = some (entries, rest)) : (entries.map Prod.fst).Nodup := by
  induction fuel generalizing cs rest entries with
  | zero => rw [entries?] at h; cases h
  | succ fuel ih =>
    unfold entries? at h
    split at h
    · cases h
      exact List.nodup_nil
    · obtain ⟨⟨key, afterKey⟩, -, h⟩ := Option.bind_eq_some_iff.mp h
      simp only at h
      split at h
      · obtain ⟨⟨value, afterValue⟩, -, h⟩ := Option.bind_eq_some_iff.mp h
        simp only at h
        split at h
        · obtain ⟨⟨others, after⟩, hothers, h⟩ := Option.bind_eq_some_iff.mp h
          simp only at h
          split_ifs at h with hkey
          · cases h
            exact ih hothers
          · cases h
            refine List.nodup_cons.mpr ⟨fun hmem => hkey ?_, ih hothers⟩
            obtain ⟨e, he, rfl⟩ := List.mem_map.mp hmem
            exact List.any_eq_true.mpr ⟨e, he, beq_self_eq_true _⟩
        · cases h
          exact List.nodup_singleton key
        · cases h
      · cases h

theorem nodup_keys_value? {fuel : Nat} {cs rest : List Char} {value : Data}
    (h : value? fuel cs = some (value, rest)) : value.keys.Nodup := by
  cases fuel with
  | zero => rw [value?] at h; cases h
  | succ fuel =>
    rw [value?] at h
    obtain ⟨⟨found, after⟩, hfound, heq⟩ := Option.map_eq_some_iff.mp h
    cases heq
    split at hfound
    · cases hfound; exact List.nodup_nil
    · cases hfound; exact List.nodup_nil
    · split at hfound
      · obtain ⟨⟨entries, after⟩, hentries, heq⟩ := Option.map_eq_some_iff.mp hfound
        cases heq
        exact nodup_entries? hentries
      · obtain ⟨⟨items, after⟩, -, heq⟩ := Option.map_eq_some_iff.mp hfound
        cases heq
        exact List.nodup_nil
      · obtain ⟨⟨body, after⟩, -, heq⟩ := Option.map_eq_some_iff.mp hfound
        cases heq
        exact List.nodup_nil
      · split at hfound
        · cases hfound; exact List.nodup_nil
        · cases hfound
      · cases hfound
        rw [keys_plain]
        exact List.nodup_nil

theorem nodup_keys_read (text : String) : (read text).keys.Nodup := by
  rw [read]
  split
  · exact nodup_keys_value? ‹_›
  · exact List.nodup_nil

end ValueText

namespace Environment

theorem pieces_ne_nil (cs : List Char) : pieces cs ≠ [] := by
  fun_cases pieces cs <;> simp [*]

theorem path?_ne_nil {name : String} {path : List String} (h : path? name = some path) :
    path ≠ [] := by
  unfold path? at h
  obtain ⟨rest, -, h⟩ := Option.bind_eq_some_iff.mp h
  simp only [Option.ite_none_left_eq_some, Option.some.injEq] at h
  rw [← h.2, ne_eq, List.map_eq_nil_iff]
  exact pieces_ne_nil _

theorem isSettings_nested {value : Data} (hvalue : value.keys.Nodup) {path : List String}
    (hpath : path ≠ []) : (nested value path).IsSettings := by
  cases path with
  | nil => exact absurd rfl hpath
  | cons key path =>
    refine ⟨rfl, fun rules hrules => ?_⟩
    have hrules' : nested value path = rules := by
      by_cases hkey : "rules" = key
      · simpa [nested, Data.get?, hkey] using hrules
      · have hne : ("rules" == key) = false := beq_eq_false_iff_ne.mpr hkey
        simp [nested, Data.get?, List.lookup_cons, hne] at hrules
    subst hrules'
    cases path with
    | nil => exact hvalue
    | cons other path => exact List.nodup_singleton other

/-- What variables set is like a file of settings. -/
theorem toData_isSettings (assignments : List (String × String)) :
    (toData assignments).IsSettings := by
  rw [toData]
  refine List.foldlRecOn assignments _ ⟨rfl, fun rules hrules => by cases hrules⟩ ?_
  rintro data hdata ⟨name, text⟩ -
  simp only
  split
  · rename_i path hpath
    exact hdata.merge (isSettings_nested (ValueText.nodup_keys_read _) (path?_ne_nil hpath))
  · exact hdata

end Environment

namespace ConfigLayers

variable (layers : ConfigLayers)

/-! ### The layers of a configuration -/

/-- Whether the files of the layers are files of settings. -/
structure WellFormed : Prop where
  toolchain : ∀ file, layers.toolchain = some file → file.IsSettings
  project : ∀ file, layers.project = some file → file.IsSettings

/-- The layers over the defaults, from the lowest to the highest. -/
def stack : List Data :=
  layers.toolchain.toList ++ layers.project.toList ++ [Environment.toData layers.environment]

theorem merged_eq : layers.merged = layers.stack.foldl Data.merge defaults := by
  rw [merged, stack]
  cases layers.toolchain with
  | none => cases layers.project <;> rfl
  | some file => cases layers.project <;> rfl

/-- The tables of rules that count, from the lowest layer to the highest. -/
def ruleTables : List Data :=
  (layers.stack.filterMap (Data.get? "rules")).rtakeWhile Data.isTable

/-- What the layers say under the key of a rule, from the lowest to the highest. -/
def settingsAt (key : String) : List Data := layers.ruleTables.filterMap (Data.get? key)

variable {layers}

theorem WellFormed.isSettings (h : layers.WellFormed) :
    ∀ layer ∈ layers.stack, layer.IsSettings := by
  intro layer hlayer
  simp only [stack, List.mem_append, Option.mem_toList, List.mem_singleton] at hlayer
  rcases hlayer with (hfile | hfile) | rfl
  · exact h.toolchain layer hfile
  · exact h.project layer hfile
  · exact Environment.toData_isSettings layers.environment

/-- What the merged configuration has as its table of rules: under each key what the layers say
there, one over the other. -/
theorem WellFormed.rules_merged (h : layers.WellFormed) :
    ∃ rules, layers.merged.get? "rules" = some rules ∧ rules.keys.Nodup ∧
      ∀ key, rules.get? key = Data.mergeAll? (layers.settingsAt key) := by
  have hdefaults : defaults.get? "rules" = some (.table []) := rfl
  have hsettings : layers.merged.IsSettings := by
    rw [merged_eq]
    refine Data.IsSettings.foldl_merge h.isSettings ⟨rfl, fun rules hrules => ?_⟩
    obtain rfl := Option.some.inj (hdefaults.symm.trans hrules)
    exact List.nodup_nil
  have hrules := Data.get?_foldl_merge_of_isTable (fun layer hl => (h.isSettings layer hl).isTable)
    hdefaults
  rw [← merged_eq] at hrules
  exact ⟨_, hrules, hsettings.nodup _ hrules, Data.get?_foldl_merge _⟩

end ConfigLayers

end TsxLint
