import TsxLint.Rule.Compound
import TsxLint.Rule.FunctionSize
import TsxLint.Rule.HandlerContract
import TsxLint.Rule.Hook
import TsxLint.Rule.InlineCall
import TsxLint.Rule.Mutation
import TsxLint.Rule.Ownership
import TsxLint.Rule.PropContract

/-!
# All rules, and the presets

The rules in the order in which they run, the core rules first, and the two bundles of settings that
a configuration can start from.
-/

namespace TsxLint

/-- Every rule, in the order in which rules run. -/
def Rule.all : List Rule :=
  [complexity, noExternalBindingMutation, maxParams, noParamReassign, preferConst,
    noInlineCallExpressions, noTitleCaseProps, noCustomKebabCaseProps, noSetPrefixUtils,
    noHandlePrefixUtils, noUselessHook, noHookJsx, noExportedContextHooks, noHandlerReturnType,
    jsxServerActionPropSuffix, jsxOnHandlerVerbSuffix, jsxOnNounVerbHandlerProps,
    noRenderHelperFunctions, noElementProps, noComponentTypeProps, noObjectProps, noArrayProps,
    noPrefixedPropBundles, noOptionalPropsWithoutDefaults, noBooleanCapabilityProps,
    maxCustomProps, jsxBemCompoundNaming, jsxCompoundPartExportNaming, noPropDrilling,
    noPassThroughProps, jsxFlatOwnerTree]

/-- The rule of an exact name. -/
def Rule.find? (name : String) : Option Rule := Rule.all.find? (·.name == name)

/-- How a preset sets a rule. -/
structure PresetRule where
  name : String
  level : Severity
  options : Option Data

namespace Preset

/-- A rule whose findings are errors. -/
def error (name : String) : PresetRule := ⟨name, .error, none⟩

/-- A rule with options whose findings are errors. -/
def errorWith (name : String) (options : List (String × Data)) : PresetRule :=
  ⟨name, .error, some (.table options)⟩

/-- Baseline correctness and immutability. -/
def core : List PresetRule :=
  [error "no-external-binding-mutation",
    errorWith "complexity" [("max", .whole 5), ("variant", .text "modified")],
    errorWith "max-params" [("max", .whole 4)],
    errorWith "no-param-reassign" [("props", .bool true)],
    error "prefer-const"]

/-- The shape of component interfaces. -/
def react : List PresetRule :=
  [error "no-title-case-props", error "no-custom-kebab-case-props", error "no-set-prefix-utils",
    error "no-useless-hook", error "no-hook-jsx", error "no-exported-context-hooks",
    error "no-handler-return-type", error "jsx-server-action-prop-suffix",
    error "jsx-on-handler-verb-suffix", error "no-render-helper-functions",
    error "no-element-props", error "no-componenttype-props", error "no-object-props",
    error "no-array-props", error "no-prefixed-prop-bundles",
    errorWith "no-optional-props-without-defaults"
      [("ignore", .list [.text "on*", .text "ref", .text "render"])],
    errorWith "no-boolean-capability-props"
      [("ignore", .list [.text "asChild"]), ("ignoreNativeBooleanProps", .bool true)],
    error "max-custom-props", error "jsx-bem-compound-naming",
    error "jsx-compound-part-export-naming",
    errorWith "no-prop-drilling" [("allowedDepth", .whole 1), ("ignorePropsSpread", .bool true)],
    error "jsx-flat-owner-tree"]

/-- The preset of a name. -/
def find? : String → Option (List PresetRule)
  | "core" => some core
  | "react" => some react
  | _ => none

end Preset

end TsxLint
