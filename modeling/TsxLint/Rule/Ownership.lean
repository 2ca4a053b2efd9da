import TsxLint.Component.Markup
import TsxLint.Rule.Basic
import TsxLint.Rule.Options

/-!
# Ownership of props and markup

A component that only hands something on does not own it. Props that are only forwarded, chains of
components that drill a prop down, and chains of components that hand their markup on to one another
are reported.

## Main definitions

* `PropDrilling.forwarders`, `PropDrilling.graph`: which components forward props, and to whom.
* `OwnerTree.graph`: which components hand their markup on.
* `noPropDrilling`, `noPassThroughProps`, `jsxFlatOwnerTree`: the rules.
-/

namespace TsxLint

open Template (hole)

/-- The last entry under a key. -/
def lastUnder? {α : Type} (key : String) (entries : List (String × α)) : Option α :=
  entries.reverse.lookup key

/-! ### Drilling -/

namespace PropDrilling

/-- The options of the rule: how long a chain may be, and whether rest bindings are left out. -/
structure Options where
  allowedDepth : Nat
  ignoreSpread : Bool

/-- Reads the options; the depth is at least one. -/
def Options.ofData? (data : Data) : Option Options := do
  let table ← OptionTable.ofData? ["allowedDepth", "ignorePropsSpread"] data
  let allowedDepth ← table.read? "allowedDepth" Data.count? 1
  let ignoreSpread ← table.read? "ignorePropsSpread" Data.bool? true
  if allowedDepth = 0 then none else some ⟨allowedDepth, ignoreSpread⟩

/-- The components that forward props, with those props. -/
def forwarders (options : Options) (m : Model) : List (String × List ForwardedProp) :=
  (m.components.map fun component =>
    (component.name, m.forwardedProps component (!options.ignoreSpread))).filter
      fun (_, props) => !props.isEmpty

/-- The graph of who forwards a prop to whom. -/
def graph (forwarders : List (String × List ForwardedProp)) : ComponentGraph :=
  forwarders.foldl (fun g (name, props) => g.insert name (props.flatMap ForwardedProp.components))
    .empty

/-- The forwarded props of the components at the start of a chain that is too long. -/
def check (options : Options) : Check := fun s =>
  let forwarders := forwarders options s.model
  ((graph forwarders).flaggedRoots options.allowedDepth).flatMap fun flagged =>
    ((lastUnder? flagged.name forwarders).getD []).map fun prop =>
      ⟨prop.binding.binder.span, "noPropDrilling",
        [("prop", prop.binding.label), ("component", flagged.name),
          ("forwardedTo", prop.targetsLabel), ("depth", toString flagged.depth),
          ("allowedDepth", toString options.allowedDepth)]⟩

end PropDrilling

/-- Refuses props that are drilled through components. -/
def noPropDrilling : Rule where
  name := "no-prop-drilling"
  category := .react
  description := "Disallow prop drilling in component owners"
  messages :=
    [("noPropDrilling", "Prop '" ++ hole "prop" ++ "' in '" ++ hole "component" ++
      "' has a prop drilling depth of " ++ hole "depth" ++ " (allowed " ++ hole "allowedDepth" ++
      "). Use compound composition.")]
  configure := fun data => (PropDrilling.Options.ofData? data).map PropDrilling.check

/-! ### Passing through -/

/-- The props that components only hand on. A prop that is spread is reshaped and does not count. -/
def PassThrough.check : Check := fun s =>
  s.model.components.flatMap fun component =>
    ((s.model.forwardedProps component false).filter fun prop =>
      !prop.targets.contains "props spread").map fun prop =>
        ⟨prop.binding.binder.span, "noPassThroughProp",
          [("prop", prop.binding.label), ("component", component.name),
            ("forwardedTo", prop.targetsLabel)]⟩

/-- Refuses props that are only handed on. -/
def noPassThroughProps : Rule where
  name := "no-pass-through-props"
  category := .react
  description := "Disallow pass-through-only props in component owners (accepting props only to forward them)"
  messages :=
    [("noPassThroughProp", "Prop '" ++ hole "prop" ++ "' in '" ++ hole "component" ++
      "' is only forwarded to '" ++ hole "forwardedTo" ++
      "'. Remove it or compose via children.")]
  configure := withoutOptions PassThrough.check

/-! ### Handing markup on -/

namespace OwnerTree

/-- Reads how long a chain may be, at least one. -/
def allowedDepth? (data : Data) : Option Nat := do
  let table ← OptionTable.ofData? ["allowedChainDepth"] data
  let allowed ← table.read? "allowedChainDepth" Data.count? 2
  if allowed = 0 then none else some allowed

/-- The graph of who hands markup on to whom. -/
def graph (components : List NamedFunction) : ComponentGraph :=
  components.foldl (fun g component => g.insert component.name (handoffs component.body?)) .empty

/-- The components at the start of a chain that is too long. -/
def check (allowed : Nat) : Check := fun s =>
  let components := s.model.components
  let anchors := components.map fun component => (component.name, component.reportSpan)
  ((graph components).flaggedRoots allowed).filterMap fun flagged =>
    (lastUnder? flagged.name anchors).map fun span =>
      ⟨span, "deepParentTree",
        [("component", flagged.name), ("depth", toString flagged.depth),
          ("allowedDepth", toString allowed), ("chain", Text.joinWith " -> " flagged.chain),
          ("nextHandoff", flagged.nextHandoff)]⟩

end OwnerTree

/-- Bounds the chains in which components hand their markup on. -/
def jsxFlatOwnerTree : Rule where
  name := "jsx-flat-owner-tree"
  category := .react
  description := "Encourage flatter parent component chains by reporting self-closing custom component handoffs deeper than allowedChainDepth"
  messages :=
    [("deepParentTree", "Component '" ++ hole "component" ++ "' is in a " ++ hole "depth" ++
      "-deep self-closing handoff chain (allowed " ++ hole "allowedDepth" ++ "): " ++
      hole "chain" ++ ". Flatten at '" ++ hole "nextHandoff" ++ "'.")]
  configure := fun data => (OwnerTree.allowedDepth? data).map OwnerTree.check

end TsxLint
